import TracedHeap.Roots.BorrowCell

/-! # The guards of a borrow cell

A borrow cell knows how many guards are alive and of which kind, but not which ones they
are: to give one back it only counts.  Nevertheless its guards, of which any may be the next
to go, decide alone which borrows it grants.

1. **Runs** (`Lending`): borrows that are granted or refused, guards that are dropped in any
   order, reads and changes through guards, and changes while there is none.
2. **Guards against the count**: the state of a cell is what its living guards make of it
   (`Borrow.HeldBy`), before and after each operation and so after each run.
3. **Values**: a cell contains what was written last (`lastWritten`).
4. **The way back**: once all guards are dropped, a cell is as good as new.
5. **The law of guards** (`Orderly`).

The main statement is `living_guards_decide_borrows`.
-/

namespace TracedHeap

/-- What a guard lets its holder do with the value. -/
inductive Access where
  /-- Look at it, as others may. -/
  | shared
  /-- Look at it and change it, and nobody else may. -/
  | unique
  deriving DecidableEq, Repr

/-- A guard that a cell has handed out. -/
structure Guard where
  /-- How many guards the cell had handed out before. -/
  number : Nat
  access : Access
  deriving DecidableEq, Repr

namespace Access

/-- Whether some guards stand in the way of another one. -/
def Barred (guards : List Guard) : Access → Prop
  | .shared => ∃ g ∈ guards, g.access = .unique
  | .unique => guards ≠ []

/-- The fault of a borrow that is refused. -/
def refusal : Access → Fault
  | .shared => .alreadyMutablyBorrowed
  | .unique => .alreadyBorrowed

end Access

/-- One guard more, of either kind. -/
def Borrow.lend (b : Borrow) : Access → Except Fault Borrow
  | .shared => b.share
  | .unique => b.seize

/-- Hands out a guard of either kind. -/
def BorrowCell.lend {α : Type} (c : BorrowCell α) : Access → Except Fault (BorrowCell α)
  | .shared => c.share
  | .unique => c.seize

theorem BorrowCell.lend_eq {α : Type} (c : BorrowCell α) (access : Access) :
    c.lend access = (c.borrow.lend access).map fun b => { c with borrow := b } := by
  cases access with
  | shared =>
    show c.share = c.borrow.share.map _
    rw [share]
    cases c.borrow.share <;> rfl
  | unique =>
    show c.seize = c.borrow.seize.map _
    rw [seize]
    cases c.borrow.seize <;> rfl

/-! ## Runs -/

/-- A borrow cell in use. -/
structure Lending (α : Type) where
  cell : BorrowCell α
  /-- The guards that are alive. -/
  guards : List Guard
  /-- How many guards have been handed out. -/
  issued : Nat

namespace Lending

variable {α : Type}

/-- A fresh cell. -/
def new (value : α) : Lending α := ⟨.new value, [], 0⟩

/-- What can be done with a cell and its guards. -/
inductive Operation (α : Type) where
  | borrow (access : Access)
  | drop (g : Guard)
  | read (g : Guard)
  /-- Changes the value in place, through a unique guard. -/
  | write (g : Guard) (change : α → α)
  /-- Changes the value in place while there is no guard, without asking the cell. -/
  | getMut (change : α → α)

/-- What comes of it. -/
inductive Reply (α : Type) where
  | granted (g : Guard)
  | refused (fault : Fault)
  | shows (value : α)
  | done
  deriving DecidableEq, Repr

/-- A guard is alive as soon as it is handed out.  A borrow that is refused leaves all as it
was. -/
def settle (now : Lending α) (access : Access) :
    Except Fault (BorrowCell α) → Reply α × Lending α
  | .ok cell =>
    let g : Guard := ⟨now.issued, access⟩
    (.granted g, ⟨cell, g :: now.guards, now.issued + 1⟩)
  | .error fault => (.refused fault, now)

/-- The reply to an operation, and what the operation leaves behind. -/
def perform (now : Lending α) : Operation α → Reply α × Lending α
  | .borrow access => now.settle access (now.cell.lend access)
  | .drop g => (.done, { now with cell := now.cell.release, guards := now.guards.erase g })
  | .read _ => (.shows now.cell.value, now)
  | .write _ change | .getMut change =>
    (.done, { now with cell := now.cell.write (change now.cell.value) })

/-- Only living guards can be used, only a unique one to change the value, and only who holds
the cell alone can go around its guards. -/
def Operation.Possible (now : Lending α) : Operation α → Prop
  | .borrow _ => True
  | .drop g | .read g => g ∈ now.guards
  | .write g _ => g ∈ now.guards ∧ g.access = .unique
  | .getMut _ => now.guards = []

/-- Each of some operations is possible when its turn comes. -/
def Proper (now : Lending α) : List (Operation α) → Prop
  | [] => True
  | op :: rest => op.Possible now ∧ (now.perform op).2.Proper rest

/-- What some operations leave behind, whatever the replies to them. -/
def after (now : Lending α) (ops : List (Operation α)) : Lending α :=
  ops.foldl (fun now op => (now.perform op).2) now

instance (now : Lending α) : (op : Operation α) → Decidable (op.Possible now)
  | .borrow _ => inferInstanceAs (Decidable True)
  | .drop g | .read g => inferInstanceAs (Decidable (g ∈ now.guards))
  | .write g _ => inferInstanceAs (Decidable (g ∈ now.guards ∧ g.access = .unique))
  | .getMut _ => inferInstanceAs (Decidable (now.guards = []))

instance decidableProper : (now : Lending α) → (ops : List (Operation α)) →
    Decidable (now.Proper ops)
  | _, [] => inferInstanceAs (Decidable True)
  | now, op :: rest =>
    have : Decidable ((now.perform op).2.Proper rest) := decidableProper _ rest
    inferInstanceAs (Decidable (op.Possible now ∧ (now.perform op).2.Proper rest))

end Lending

/-! ## Guards against the count -/

namespace Borrow

variable {b : Borrow} {guards : List Guard} {g : Guard}

/-- The state of a cell with some readers. -/
def lentTo : Nat → Borrow
  | 0 => .idle
  | more + 1 => .shared more

theorem share_lentTo (n : Nat) : (lentTo n).share = .ok (lentTo (n + 1)) := by
  cases n <;> rfl

theorem release_lentTo (n : Nat) : (lentTo (n + 1)).release = lentTo n := by
  cases n <;> rfl

theorem lentTo_eq_idle_iff {n : Nat} : lentTo n = .idle ↔ n = 0 := by
  cases n <;> simp [lentTo]

/-- What the living guards make of the state of their cell. -/
inductive HeldBy : Borrow → List Guard → Prop where
  /-- Any number of readers, also none. -/
  | readers {guards : List Guard} (h : ∀ g ∈ guards, g.access = .shared) :
      HeldBy (.lentTo guards.length) guards
  /-- One writer. -/
  | writer {g : Guard} (h : g.access = .unique) : HeldBy .unique [g]

theorem heldBy_nil : HeldBy .idle [] := by
  have hnone : ∀ g ∈ ([] : List Guard), g.access = .shared := fun _ hg => nomatch hg
  exact HeldBy.readers hnone

namespace HeldBy

theorem eq_idle (h : HeldBy b []) : b = .idle := by
  cases h
  rfl

/-- A unique guard is the only one. -/
theorem alone (h : HeldBy b guards) (hg : g ∈ guards) (hunique : g.access = .unique) :
    guards = [g] := by
  cases h with
  | readers hshared =>
    rw [hshared g hg] at hunique
    cases hunique
  | writer _ =>
    rw [List.mem_singleton] at hg
    rw [hg]

/-- A shared guard is handed out unless there is a writer. -/
theorem share (h : HeldBy b guards) :
    (Access.shared.Barred guards ∧ b.share = .error .alreadyMutablyBorrowed) ∨
    (¬ Access.shared.Barred guards ∧
      ∃ b', b.share = .ok b' ∧ ∀ n, HeldBy b' (⟨n, .shared⟩ :: guards)) := by
  cases h with
  | readers hshared =>
    right
    constructor
    · rintro ⟨g, hg, hunique⟩
      rw [hshared g hg] at hunique
      cases hunique
    · refine ⟨_, share_lentTo _, fun n => ?_⟩
      exact HeldBy.readers (List.forall_mem_cons.2 ⟨rfl, hshared⟩)
  | writer hunique =>
    left
    exact ⟨⟨_, List.mem_singleton_self _, hunique⟩, rfl⟩

/-- The unique guard is handed out if there is no other guard at all. -/
theorem seize (h : HeldBy b guards) :
    (Access.unique.Barred guards ∧ b.seize = .error .alreadyBorrowed) ∨
    (¬ Access.unique.Barred guards ∧
      ∃ b', b.seize = .ok b' ∧ ∀ n, HeldBy b' (⟨n, .unique⟩ :: guards)) := by
  cases guards with
  | nil =>
    right
    rw [h.eq_idle]
    exact ⟨fun hbarred => hbarred rfl, _, rfl, fun n => HeldBy.writer rfl⟩
  | cons first rest =>
    left
    refine ⟨List.cons_ne_nil _ _, ?_⟩
    cases h with
    | readers _ => rfl
    | writer _ => rfl

/-- A guard is handed out unless others stand in its way. -/
theorem lend (h : HeldBy b guards) (access : Access) :
    (access.Barred guards ∧ b.lend access = .error access.refusal) ∨
    (¬ access.Barred guards ∧
      ∃ b', b.lend access = .ok b' ∧ ∀ n, HeldBy b' (⟨n, access⟩ :: guards)) := by
  cases access with
  | shared => exact h.share
  | unique => exact h.seize

/-- The guard that is given back need not be the latest. -/
theorem release (h : HeldBy b guards) (hg : g ∈ guards) :
    HeldBy b.release (guards.erase g) := by
  cases h with
  | readers hshared =>
    have hlength : guards.length = (guards.erase g).length + 1 := by
      have hpos : 0 < guards.length := List.length_pos_of_mem hg
      rw [List.length_erase_of_mem hg]
      omega
    rw [hlength, release_lentTo]
    exact HeldBy.readers fun other hother => hshared other (List.mem_of_mem_erase hother)
  | writer _ =>
    rw [List.mem_singleton] at hg
    rw [hg, List.erase_cons_head]
    exact heldBy_nil

end HeldBy

end Borrow

namespace Lending

variable {α : Type} {now : Lending α}

/-- What holds of a cell and its guards at any time. -/
structure Sound (now : Lending α) : Prop where
  held : now.cell.borrow.HeldBy now.guards
  numbered : ∀ g ∈ now.guards, g.number < now.issued

theorem sound_new (value : α) : (new value).Sound where
  held := Borrow.heldBy_nil
  numbered _ hg := nomatch hg

/-- What a borrow leaves behind that was granted: a guard of its own. -/
structure Granted (now : Lending α) (access : Access) (g : Guard) (next : Lending α) : Prop where
  access : g.access = access
  fresh : g ∉ now.guards
  guards : next.guards = g :: now.guards
  value : next.cell.value = now.cell.value

/-- All that a borrow can come to. -/
theorem Sound.borrow_cases (h : now.Sound) (access : Access) :
    (access.Barred now.guards ∧
      now.perform (.borrow access) = (.refused access.refusal, now)) ∨
    (¬ access.Barred now.guards ∧ ∃ g next,
      now.perform (.borrow access) = (.granted g, next) ∧
        now.Granted access g next ∧ next.Sound) := by
  have hperform : now.perform (.borrow access) =
      now.settle access ((now.cell.borrow.lend access).map fun b => ⟨now.cell.value, b⟩) :=
    congrArg (now.settle access) (now.cell.lend_eq access)
  rcases h.held.lend access with ⟨hbarred, hlend⟩ | ⟨hfree, b, hlend, hheld⟩
  · left
    rw [hlend] at hperform
    exact ⟨hbarred, hperform⟩
  · right
    rw [hlend] at hperform
    have hfresh : (⟨now.issued, access⟩ : Guard) ∉ now.guards := by
      intro hmem
      exact Nat.lt_irrefl _ (h.numbered _ hmem)
    refine ⟨hfree, _, _, hperform, ⟨rfl, hfresh, rfl, rfl⟩, hheld _, ?_⟩
    refine List.forall_mem_cons.2 ⟨Nat.lt_succ_self _, fun g hg => ?_⟩
    exact Nat.lt_succ_of_lt (h.numbered g hg)

theorem Sound.drop (h : now.Sound) {g : Guard} (hg : g ∈ now.guards) :
    (now.perform (.drop g)).2.Sound where
  held := h.held.release hg
  numbered other hother := h.numbered other (List.mem_of_mem_erase hother)

theorem Sound.perform (h : now.Sound) {op : Operation α} (hop : op.Possible now) :
    (now.perform op).2.Sound := by
  cases op with
  | borrow access =>
    rcases h.borrow_cases access with ⟨_, hrefused⟩ | ⟨_, g, next, hgranted, _, hsound⟩
    · rw [hrefused]
      exact h
    · rw [hgranted]
      exact hsound
  | drop g => exact h.drop hop
  | read g => exact h
  -- a change of the value concerns neither the guards nor the count
  | write g change => exact ⟨h.held, h.numbered⟩
  | getMut change => exact ⟨h.held, h.numbered⟩

theorem Sound.after (h : now.Sound) {ops : List (Operation α)} (hops : now.Proper ops) :
    (now.after ops).Sound := by
  induction ops generalizing now with
  | nil => exact h
  | cons op rest ih =>
    -- what one operation leaves behind is where the others start
    obtain ⟨hop, hrest⟩ := hops
    exact ih (h.perform hop) hrest

theorem Sound.refused_iff (h : now.Sound) (access : Access) (fault : Fault) :
    (now.perform (.borrow access)).1 = .refused fault ↔
      fault = access.refusal ∧ access.Barred now.guards := by
  rcases h.borrow_cases access with ⟨hbarred, hrefused⟩ | ⟨hfree, g, next, hgranted, _⟩
  · rw [hrefused]
    constructor
    · intro hfault
      cases hfault
      exact ⟨rfl, hbarred⟩
    · rintro ⟨rfl, _⟩
      rfl
  · rw [hgranted]
    constructor
    · intro hfault
      cases hfault
    · rintro ⟨_, hbarred⟩
      exact absurd hbarred hfree

/-- Every borrow of a cell without guards is granted. -/
theorem Sound.granted_of_unguarded (h : now.Sound) (hnone : now.guards = []) (access : Access) :
    ∃ g next, now.perform (.borrow access) = (.granted g, next) ∧ now.Granted access g next := by
  rcases h.borrow_cases access with ⟨hbarred, _⟩ | ⟨_, g, next, hgranted, hnext, _⟩
  · rw [hnone] at hbarred
    cases access with
    | shared =>
      obtain ⟨g, hg, _⟩ := hbarred
      cases hg
    | unique => exact absurd rfl hbarred
  · exact ⟨g, next, hgranted, hnext⟩

/-! ## Values -/

/-- What an operation makes of the value that was written last before it. -/
def Operation.leave (value : α) : Operation α → α
  | .write _ change | .getMut change => change value
  | .borrow _ | .drop _ | .read _ => value

/-- What was written last, from the value that the cell was made with. -/
def lastWritten (start : α) (ops : List (Operation α)) : α := ops.foldl Operation.leave start

theorem value_perform (now : Lending α) (op : Operation α) :
    (now.perform op).2.cell.value = op.leave now.cell.value := by
  cases op with
  | borrow access =>
    simp only [perform, BorrowCell.lend_eq]
    -- a guard that is handed out changes who holds the cell, and one that is refused nothing
    cases now.cell.borrow.lend access <;> rfl
  | drop g => rfl
  | read g => rfl
  | write g change => rfl
  | getMut change => rfl

theorem value_after (now : Lending α) (ops : List (Operation α)) :
    (now.after ops).cell.value = lastWritten now.cell.value ops := by
  induction ops generalizing now with
  | nil => rfl
  | cons op rest ih =>
    calc ((now.perform op).2.after rest).cell.value
        = lastWritten (now.perform op).2.cell.value rest := ih _
      _ = lastWritten (op.leave now.cell.value) rest := by rw [value_perform]

/-! ## The way back -/

theorem lastWritten_drops (value : α) (order : List Guard) :
    lastWritten value (order.map .drop) = value := by
  induction order with
  | nil => rfl
  | cons g rest ih => exact ih

/-- All guards can be dropped, in any order. -/
theorem drops_all {order : List Guard} (horder : order.Perm now.guards) :
    now.Proper (order.map .drop) ∧ (now.after (order.map .drop)).guards = [] := by
  induction order generalizing now with
  | nil => exact ⟨trivial, List.nil_perm.1 horder⟩
  | cons g rest ih =>
    -- the others are those that are left when the first one has gone
    obtain ⟨hg, hperm⟩ := List.cons_perm_iff_perm_erase.1 horder
    have hrest : rest.Perm (now.perform (.drop g)).2.guards := hperm
    obtain ⟨hproper, hnone⟩ := ih hrest
    exact ⟨⟨hg, hproper⟩, hnone⟩

theorem Sound.cell_of_unguarded (h : now.Sound) (hnone : now.guards = []) :
    now.cell = .new now.cell.value := by
  have hidle : now.cell.borrow = .idle := by
    have hheld := h.held
    rw [hnone] at hheld
    exact hheld.eq_idle
  rw [BorrowCell.new, ← hidle]

/-! ## The law of guards -/

/-- What the guards that are alive after some operations say of the next borrow, of reads, and
of the value that is taken out. -/
structure Orderly (start : α) (ops : List (Operation α)) (now : Lending α) : Prop where
  /-- A shared borrow is refused exactly if a unique guard is alive. -/
  shared : ∀ fault, (now.perform (.borrow .shared)).1 = .refused fault ↔
    fault = .alreadyMutablyBorrowed ∧ ∃ g ∈ now.guards, g.access = .unique
  /-- A unique borrow is refused exactly if any guard is alive. -/
  unique : ∀ fault, (now.perform (.borrow .unique)).1 = .refused fault ↔
    fault = .alreadyBorrowed ∧ now.guards ≠ []
  /-- A borrow changes nothing if it is refused, and else adds a guard, which is new. -/
  outcome : ∀ access,
    (∃ fault, now.perform (.borrow access) = (.refused fault, now)) ∨
    ∃ g next, now.perform (.borrow access) = (.granted g, next) ∧ now.Granted access g next
  /-- A unique guard is never alive together with another guard. -/
  alone : ∀ g ∈ now.guards, g.access = .unique → now.guards = [g]
  /-- Every guard shows what was written last. -/
  read : ∀ g ∈ now.guards, (now.perform (.read g)).1 = .shows (lastWritten start ops)
  /-- So does the value that is taken out. -/
  intoInner : now.cell.intoInner = lastWritten start ops
  /-- All guards can be dropped, in any order, and then the cell is as good as new: every
  borrow is granted. -/
  dropped : ∀ order : List Guard, order.Perm now.guards →
    let drops : List (Operation α) := order.map .drop
    now.Proper drops ∧ (now.after drops).guards = [] ∧
      (now.after drops).cell = .new (lastWritten start ops) ∧
      ∀ access, ∃ g next, (now.after drops).perform (.borrow access) = (.granted g, next) ∧
        (now.after drops).Granted access g next

/-- The guards that are alive decide alone which borrows a cell grants, after any run on a
fresh one: any borrows, of which some were refused, with guards dropped in any order and
changes of the value in between.  A reader always finds what was written last. -/
theorem living_guards_decide_borrows (start : α) {ops : List (Operation α)}
    (h : (new start).Proper ops) : ((new start).after ops).Orderly start ops := by
  have hsound : ((new start).after ops).Sound := (sound_new start).after h
  have hvalue : ((new start).after ops).cell.value = lastWritten start ops := value_after _ ops
  constructor
  case shared => exact hsound.refused_iff .shared
  case unique => exact hsound.refused_iff .unique
  case outcome =>
    intro access
    rcases hsound.borrow_cases access with ⟨_, hrefused⟩ | ⟨_, g, next, hgranted, hnext, _⟩
    · exact .inl ⟨_, hrefused⟩
    · exact .inr ⟨g, next, hgranted, hnext⟩
  case alone => exact fun g hg => hsound.held.alone hg
  case read => exact fun g hg => congrArg Reply.shows hvalue
  case intoInner => exact hvalue
  case dropped =>
    intro order horder drops
    obtain ⟨hproper, hnone⟩ := drops_all horder
    have hidle : (((new start).after ops).after drops).Sound := hsound.after hproper
    refine ⟨hproper, hnone, ?_, hidle.granted_of_unguarded hnone⟩
    rw [hidle.cell_of_unguarded hnone, value_after, lastWritten_drops, hvalue]

/-- Two readers, the first of which goes first, then a writer; each keeps others out. -/
theorem writer_waits_for_both_readers :
    let reading : List (Operation (List Nat)) :=
      [.borrow .shared, .borrow .shared, .borrow .unique, .drop ⟨0, .shared⟩, .read ⟨1, .shared⟩]
    let writing : List (Operation (List Nat)) :=
      [.borrow .unique, .drop ⟨1, .shared⟩, .getMut (1 :: ·), .borrow .unique, .borrow .shared,
        .write ⟨2, .unique⟩ (· ++ [3])]
    let between := (new [7]).after reading
    let now := (new [7]).after (reading ++ writing)
    (new [7]).Proper (reading ++ writing) ∧
    (between.perform (.borrow .unique)).1 = .refused .alreadyBorrowed ∧
    (between.perform (.read ⟨1, .shared⟩)).1 = .shows [7] ∧
    now.guards = [⟨2, .unique⟩] ∧
    (now.perform (.borrow .shared)).1 = .refused .alreadyMutablyBorrowed ∧
    (now.perform (.read ⟨2, .unique⟩)).1 = .shows [1, 7, 3] ∧
    (now.after [.drop ⟨2, .unique⟩]).cell = .new [1, 7, 3] := by
  intro reading writing between now
  have hbetween : between.Orderly [7] reading := living_guards_decide_borrows [7] (by decide)
  have hproper : (new [7]).Proper (reading ++ writing) := by decide
  have hnow : now.Orderly [7] (reading ++ writing) := living_guards_decide_borrows [7] hproper
  refine ⟨hproper, (hbetween.unique _).2 ⟨rfl, by decide⟩, hbetween.read ⟨1, .shared⟩ (by decide),
    by decide, (hnow.shared _).2 ⟨rfl, ⟨2, .unique⟩, by decide, rfl⟩,
    hnow.read ⟨2, .unique⟩ (by decide), ?_⟩
  exact (hnow.dropped [⟨2, .unique⟩] (List.Perm.refl _)).2.2.1

end Lending

end TracedHeap
