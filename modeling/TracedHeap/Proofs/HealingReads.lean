import TracedHeap.Handle.Simulated
import TracedHeap.Proofs.Desks

/-! # Reads that heal slots

A collector that moves objects leaves their old addresses in the slots of handles.  Its read
barrier answers with the new address, and may also write it back to the slot, so that the slot
is healed.  Whether it does cannot be told from what the reads answer, although copies and
assignments hand on what is stored, healed or not.

1. **Collectors** that forward pointers, and hooks that do (`Collector.Forwards`,
   `SlotHooks.Follows`).
2. **Programs**: operations on handles, and reads whose answers decide what is done next.
3. **Views**: what a reader can see of the handles on a desk (`Desk.seen`).  Every operation
   brings desks with the same view to desks with the same view.

The main statement is `answers_same_however_slots_heal`.
-/

namespace TracedHeap

variable {V α σ σ' : Type}

/-! ## Collectors -/

/-- In certain states, a collector answers reads with a pointer that only depends on what is
stored, and leaves that in the slot or what was stored.  Writes store what they are given. -/
structure Collector.Forwards (c : Collector σ) (forward : Pointer → Pointer) (steady : σ → Prop) :
    Prop where
  seen : ∀ stored s, steady s → (c.read stored s).1.seen = forward stored
  left : ∀ stored s, steady s →
    (c.read stored s).1.left = stored ∨ (c.read stored s).1.left = forward stored
  written : ∀ given stored s, steady s → (c.write given stored s).1 = given
  read_steady : ∀ stored s, steady s → steady (c.read stored s).2
  write_steady : ∀ given stored s, steady s → steady (c.write given stored s).2

/-- In certain states, hooks answer reads with the pointer that is forwarded from what is
stored.  What they leave or store forwards to the same one. -/
structure SlotHooks.Follows (hooks : SlotHooks σ) (forward : Pointer → Pointer)
    (steady : σ → Prop) : Prop where
  seen : ∀ slot stored s, steady s → (hooks.read slot stored s).1.seen = forward stored
  left : ∀ slot stored s, steady s → forward (hooks.read slot stored s).1.left = forward stored
  written : ∀ slot given stored s, steady s →
    forward (hooks.write slot given stored s).1 = forward given
  created_steady : ∀ discipline s, steady s → steady (hooks.created discipline s)
  destroyed_steady : ∀ discipline s, steady s → steady (hooks.destroyed discipline s)
  read_steady : ∀ slot stored s, steady s → steady (hooks.read slot stored s).2
  write_steady : ∀ slot given stored s, steady s → steady (hooks.write slot given stored s).2

/-- The hooks of members and of locals, which go through the barriers of a collector. -/
def SlotHooks.ofCollector (c : Collector σ) : SlotHooks σ :=
  let hooks := Hooks.ofCollector c
  ⟨hooks.created, hooks.destroyed, fun _ => hooks.read, fun _ => hooks.write⟩

theorem Collector.Forwards.follows {c : Collector σ} {forward : Pointer → Pointer}
    {steady : σ → Prop} (h : c.Forwards forward steady)
    (hforward : ∀ p, forward (forward p) = forward p) :
    (SlotHooks.ofCollector c).Follows forward steady where
  seen _ := h.seen
  left _ stored s hs := by
    show forward (c.read stored s).1.left = forward stored
    rcases h.left stored s hs with hsame | hhealed
    · rw [hsame]
    · rw [hhealed, hforward]
  written _ given stored s hs := congrArg forward (h.written given stored s hs)
  created_steady _ _ hs := hs
  destroyed_steady _ _ hs := hs
  read_steady _ := h.read_steady
  write_steady _ := h.write_steady

/-! ## Programs -/

/-- A question about the target of a reference. -/
inductive Query (α : Type) where
  | get
  | isNull
  | isAlive
  /-- The target itself, given what is behind the pointers. -/
  | asRef (behind : Pointer → Option α)

/-- What is answered. -/
inductive Sight (α : Type) where
  | pointer (target : Pointer)
  | truth (holds : Bool)
  | object (target : Option α)
  deriving DecidableEq, Repr

namespace Query

/-- Asks a reference, which the read hook may rewrite. -/
def run (hooks : Hooks σ) (h : RefHandle) (s : σ) : Query α → Sight α × RefHandle × σ
  | .get => Prod.map .pointer id (h.get hooks s)
  | .isNull => Prod.map .truth id (h.isNull hooks s)
  | .isAlive => Prod.map .truth id (h.isAlive hooks s)
  | .asRef behind => Prod.map .object id (h.asRef hooks behind s)

/-- The answer that is given if the target reads as a pointer. -/
def answer (seen : Pointer) : Query α → Sight α
  | .get => .pointer seen
  | .isNull => .truth seen.isNone
  | .isAlive => .truth seen.isSome
  | .asRef behind => .object (behind seen)

/-- All questions are reads. -/
theorem run_eq (hooks : Hooks σ) (h : RefHandle) (s : σ) (query : Query α) :
    query.run hooks h s =
      (query.answer (hooks.read h.stored s).1.seen,
        { h with stored := (hooks.read h.stored s).1.left }, (hooks.read h.stored s).2) := by
  cases query <;> rfl

end Query

/-- Asks the reference at a place. -/
def Desk.ask (hooks : SlotHooks σ) (query : Query α) (place : Nat) (d : Desk V σ) :
    Option (Sight α) × Desk V σ :=
  match d.handle? place with
  | some (.reference h) =>
    let (sight, h, d) := query.run (hooksAt hooks place) h d
    (some sight, d.update place (.reference h))
  | _ => (none, d)

/-- Code that works on handles.  What it does next may depend on the answers that it was
given. -/
inductive HandleProgram (V α : Type) where
  | done
  | act (op : HandleOp V) (rest : HandleProgram V α)
  | ask (query : Query α) (place : Nat) (rest : Option (Sight α) → HandleProgram V α)

/-- Carries out a program, and lists the answers that it was given. -/
def HandleProgram.run (hooks : SlotHooks σ) :
    HandleProgram V α → Desk V σ → List (Option (Sight α)) × Desk V σ
  | .done, d => ([], d)
  | .act op rest, d => rest.run hooks (op.run hooks d)
  | .ask query place rest, d =>
    let (sight, d) := d.ask hooks query place
    let (sights, d) := (rest sight).run hooks d
    (sight :: sights, d)

/-! ## Views -/

section Views

variable (forward : Pointer → Pointer)

/-- A handle as it looks to a reader. -/
def Handle.seen : Handle V → Handle V
  | .value h => .value h
  | .reference h => .reference ⟨h.strength, forward h.stored⟩

@[simp] theorem Handle.discipline_seen (h : Handle V) :
    (h.seen forward).discipline = h.discipline := by
  cases h <;> rfl

namespace Desk

/-- The handles on a desk, as they look to a reader. -/
def seen (d : Desk V σ) : List (Option (Handle V)) := d.handles.map (·.map (Handle.seen forward))

variable (d : Desk V σ) (place : Nat) (h : Handle V)

theorem seen_handle? :
    (d.handle? place).map (Handle.seen forward) = (d.seen forward)[place]?.join := by
  rw [handle?, seen, List.getElem?_map]
  cases d.handles[place]? <;> rfl

@[simp] theorem seen_put : (d.put h).seen forward = d.seen forward ++ [some (h.seen forward)] := by
  simp [seen, put]

@[simp] theorem seen_take : (d.take place).seen forward = (d.seen forward).set place none := by
  simp [seen, take]

@[simp] theorem seen_update : (d.update place h).seen forward =
    (d.seen forward).modify place
      (·.map fun old => if old.discipline = h.discipline then h.seen forward else old) := by
  refine List.ext_getElem? fun i => ?_
  simp only [seen, update, List.getElem?_map, List.getElem?_modify]
  rcases d.handles[i]? with _ | _ | old
  · rfl
  · by_cases hi : place = i <;> simp [hi]
  · by_cases hi : place = i <;> by_cases hsame : old.discipline = h.discipline <;> simp [hi, hsame]

end Desk

/-- What an operation comes to, as it looks to a reader. -/
def Deed.seen : Deed V → Deed V
  | .nothing => .nothing
  | .construct code h => .construct code (h.seen forward)
  | .read place h => .read place ⟨h.strength, forward h.stored⟩
  | .write target place h => .write (forward target) place ⟨h.strength, forward h.stored⟩
  | .store code value place => .store code value place
  | .move place h => .move place (h.seen forward)
  | .destroy place h code => .destroy place (h.seen forward) code

/-- Two handles, or none, that look the same. -/
theorem Handle.seen_cases {h h' : Option (Handle V)}
    (hsame : h.map (Handle.seen forward) = h'.map (Handle.seen forward)) :
    (h = none ∧ h' = none) ∨
    (∃ v, h = some (.value v) ∧ h' = some (.value v)) ∨
    ∃ strength stored stored', h = some (.reference ⟨strength, stored⟩) ∧
      h' = some (.reference ⟨strength, stored'⟩) ∧ forward stored = forward stored' := by
  rcases h with _ | ⟨v | ⟨strength, stored⟩⟩ <;> rcases h' with _ | ⟨v' | ⟨strength', stored'⟩⟩ <;>
    simp only [Option.map_some, Option.map_none, Handle.seen, Option.some.injEq, reduceCtorEq,
      Handle.value.injEq, Handle.reference.injEq, RefHandle.mk.injEq] at hsame
  · exact Or.inl ⟨rfl, rfl⟩
  · rw [hsame]
    exact Or.inr (Or.inl ⟨v', rfl, rfl⟩)
  · obtain ⟨rfl, hstored⟩ := hsame
    exact Or.inr (Or.inr ⟨strength, stored, stored', rfl, rfl, hstored⟩)

/-- On handles that look the same, an operation comes to what looks the same. -/
theorem HandleOp.deed_seen (op : HandleOp V) {at? at?' : Nat → Option (Handle V)}
    (hat : ∀ place,
      (at? place).map (Handle.seen forward) = (at?' place).map (Handle.seen forward)) :
    (op.deed at?).seen forward = (op.deed at?').seen forward := by
  cases op with
  | fromRepr content | new strength target | null strength => rfl
  | default discipline code made => cases discipline <;> rfl
  | clone place code copy | look kind place | set target place | setValue value code place
  | access value place | move place | intoInner place | drop place code =>
    rcases Handle.seen_cases forward (hat place) with
      ⟨h, h'⟩ | ⟨v, h, h'⟩ | ⟨strength, stored, stored', h, h', hstored⟩ <;>
      simp [deed, Deed.seen, Handle.seen, *]
  | assign place source code copy =>
    rcases Handle.seen_cases forward (hat place) with
      ⟨h, h'⟩ | ⟨v, h, h'⟩ | ⟨strength, stored, stored', h, h', hstored⟩ <;>
    rcases Handle.seen_cases forward (hat source) with
      ⟨k, k'⟩ | ⟨w, k, k'⟩ | ⟨other, kept, kept', k, k', hkept⟩ <;>
      simp only [deed, h, h', k, k']
    -- what is assigned differs, but is forwarded to the same pointer
    split
    · simp [Deed.seen, hstored, hkept]
    · rfl

end Views

section Runs

variable {forward : Pointer → Pointer} {steady : σ → Prop} {steady' : σ' → Prop}
  {hooks : SlotHooks σ} {hooks' : SlotHooks σ'}

/-- Two desks look the same, and the hooks of each are in a state in which they forward. -/
structure Desk.Alike (forward : Pointer → Pointer) (steady : σ → Prop) (steady' : σ' → Prop)
    (d : Desk V σ) (d' : Desk V σ') : Prop where
  seen : d.seen forward = d'.seen forward
  left : steady d.state
  right : steady' d'.state

theorem Desk.Alike.handle? {d : Desk V σ} {d' : Desk V σ'} (h : d.Alike forward steady steady' d')
    (place : Nat) : (d.handle? place).map (Handle.seen forward) =
      (d'.handle? place).map (Handle.seen forward) := by
  rw [seen_handle?, seen_handle?, h.seen]

/-- What a handle stores is changed on both desks, to what looks the same. -/
theorem Desk.Alike.update {d : Desk V σ} {d' : Desk V σ'} {place : Nat} {h h' : Handle V}
    (hd : d.Alike forward steady steady' d') (hh : h.seen forward = h'.seen forward) :
    (d.update place h).Alike forward steady steady' (d'.update place h') := by
  have hdiscipline : h.discipline = h'.discipline := by
    rw [← h.discipline_seen forward, hh, h'.discipline_seen forward]
  constructor
  case seen => rw [seen_update, seen_update, hd.seen, hh, hdiscipline]
  case left => exact hd.left
  case right => exact hd.right

/-- Reads of references that look the same are answered in the same way, and leave desks that
look the same. -/
theorem Desk.Alike.read {d : Desk V σ} {d' : Desk V σ'} (hd : d.Alike forward steady steady' d')
    (hhooks : hooks.Follows forward steady) (hhooks' : hooks'.Follows forward steady')
    (place : Nat) (strength : Strength) {stored stored' : Pointer}
    (hstored : forward stored = forward stored') :
    ((hooksAt hooks place).read stored d).1.seen = ((hooksAt hooks' place).read stored' d').1.seen ∧
    ((Deed.read place ⟨strength, stored⟩).run hooks d).Alike forward steady steady'
      ((Deed.read place ⟨strength, stored'⟩).run hooks' d') := by
  have hseen := hhooks.seen place stored d.state hd.left
  have hseen' := hhooks'.seen place stored' d'.state hd.right
  refine ⟨hseen.trans (hstored.trans hseen'.symm), ?_⟩
  have hread : Desk.Alike forward steady steady' ((hooksAt hooks place).read stored d).2
      ((hooksAt hooks' place).read stored' d').2 :=
    ⟨hd.seen, hhooks.read_steady place stored _ hd.left,
      hhooks'.read_steady place stored' _ hd.right⟩
  refine hread.update (congrArg (Handle.reference ⟨strength, ·⟩) ?_)
  exact (hhooks.left place stored _ hd.left).trans
    (hstored.trans (hhooks'.left place stored' _ hd.right).symm)

/-- Deeds that look the same bring desks that look the same to desks that look the same. -/
theorem Deed.run_alike (hhooks : hooks.Follows forward steady)
    (hhooks' : hooks'.Follows forward steady') {deed deed' : Deed V}
    (hdeed : deed.seen forward = deed'.seen forward)
    (hcode : ∀ (d : Desk V σ) (d' : Desk V σ'), d.Alike forward steady steady' d' →
      (HandleOp.runAll hooks deed.code d).Alike forward steady steady'
        (HandleOp.runAll hooks' deed.code d'))
    {d : Desk V σ} {d' : Desk V σ'} (hd : d.Alike forward steady steady' d') :
    (deed.run hooks d).Alike forward steady steady' (deed'.run hooks' d') := by
  cases deed <;> cases deed' <;>
    simp only [Deed.seen, construct.injEq, read.injEq, write.injEq, store.injEq, move.injEq,
      destroy.injEq, RefHandle.mk.injEq, reduceCtorEq] at hdeed
  case nothing.nothing => exact hd
  case construct.construct code h _ h' =>
    obtain ⟨rfl, hh⟩ := hdeed
    have hrun := hcode d d' hd
    constructor
    case seen =>
      show ((HandleOp.runAll hooks code d).put h).seen forward =
        ((HandleOp.runAll hooks' code d').put h').seen forward
      rw [Desk.seen_put, Desk.seen_put, hh]
      exact congrArg (· ++ _) hrun.seen
    case left => exact hhooks.created_steady _ _ hrun.left
    case right => exact hhooks'.created_steady _ _ hrun.right
  case read.read place h _ h' =>
    obtain ⟨strength, stored⟩ := h
    obtain ⟨_, stored'⟩ := h'
    obtain ⟨rfl, rfl, hstored⟩ := hdeed
    exact (hd.read hhooks hhooks' place strength hstored).2
  case write.write target place h target' _ h' =>
    obtain ⟨strength, stored⟩ := h
    obtain ⟨_, stored'⟩ := h'
    obtain ⟨htarget, rfl, rfl, -⟩ := hdeed
    have hwritten := hhooks.written place target stored _ hd.left
    have hwritten' := hhooks'.written place target' stored' _ hd.right
    have hwrite : Desk.Alike forward steady steady'
        ((Desk.hooksAt hooks place).write target stored d).2
        ((Desk.hooksAt hooks' place).write target' stored' d').2 :=
      ⟨hd.seen, hhooks.write_steady place target stored _ hd.left,
        hhooks'.write_steady place target' stored' _ hd.right⟩
    refine hwrite.update (congrArg (Handle.reference ⟨strength, ·⟩) ?_)
    exact hwritten.trans (htarget.trans hwritten'.symm)
  case store.store code value place _ _ _ =>
    obtain ⟨rfl, rfl, rfl⟩ := hdeed
    exact (hcode d d' hd).update rfl
  case move.move place h _ h' =>
    obtain ⟨rfl, hh⟩ := hdeed
    refine ⟨?_, hd.left, hd.right⟩
    show ((d.take place).put h).seen forward = ((d'.take place).put h').seen forward
    rw [Desk.seen_put, Desk.seen_put, Desk.seen_take, Desk.seen_take, hd.seen, hh]
  case destroy.destroy place h code _ h' _ =>
    obtain ⟨rfl, hh, rfl⟩ := hdeed
    refine hcode _ _
      ⟨?_, hhooks.destroyed_steady _ _ hd.left, hhooks'.destroyed_steady _ _ hd.right⟩
    show (d.take place).seen forward = (d'.take place).seen forward
    rw [Desk.seen_take, Desk.seen_take, hd.seen]

theorem HandleOp.runAll_alike (hhooks : hooks.Follows forward steady)
    (hhooks' : hooks'.Follows forward steady') (ops : List (HandleOp V))
    {d : Desk V σ} {d' : Desk V σ'} (hd : d.Alike forward steady steady' d') :
    (runAll hooks ops d).Alike forward steady steady' (runAll hooks' ops d') := by
  induction ops using HandleOp.induction generalizing d d' with
  | nil => exact hd
  | cons op rest hcode hrest =>
    obtain ⟨hrun, -, -⟩ := op.run_calls_deed hooks d
    obtain ⟨hrun', -, -⟩ := op.run_calls_deed hooks' d'
    rw [runAll, runAll, hrun, hrun']
    exact hrest (Deed.run_alike hhooks hhooks' (op.deed_seen forward hd.handle?)
      (fun _ _ => hcode d.handle?) hd)

/-- Questions about references that look the same are answered in the same way. -/
theorem Desk.Alike.ask (hhooks : hooks.Follows forward steady)
    (hhooks' : hooks'.Follows forward steady') (query : Query α) (place : Nat)
    {d : Desk V σ} {d' : Desk V σ'} (hd : d.Alike forward steady steady' d') :
    (d.ask hooks query place).1 = (d'.ask hooks' query place).1 ∧
    (d.ask hooks query place).2.Alike forward steady steady' (d'.ask hooks' query place).2 := by
  unfold Desk.ask
  rcases Handle.seen_cases forward (hd.handle? place) with
    ⟨h, h'⟩ | ⟨v, h, h'⟩ | ⟨strength, stored, stored', h, h', hstored⟩ <;> rw [h, h']
  · exact ⟨rfl, hd⟩
  · exact ⟨rfl, hd⟩
  · obtain ⟨hseen, hread⟩ := hd.read hhooks hhooks' place strength hstored
    simp only [Query.run_eq, hseen, true_and]
    exact hread

theorem HandleProgram.run_alike (hhooks : hooks.Follows forward steady)
    (hhooks' : hooks'.Follows forward steady') (program : HandleProgram V α)
    {d : Desk V σ} {d' : Desk V σ'} (hd : d.Alike forward steady steady' d') :
    (program.run hooks d).1 = (program.run hooks' d').1 ∧
    (program.run hooks d).2.Alike forward steady steady' (program.run hooks' d').2 := by
  induction program generalizing d d' with
  | done => exact ⟨rfl, hd⟩
  | act op rest ih => exact ih (HandleOp.runAll_alike hhooks hhooks' [op] hd)
  | ask query place rest ih =>
    obtain ⟨hanswer, hask⟩ := hd.ask hhooks hhooks' query place
    simp only [run, hanswer]
    -- the same answer was given, so that the programs go on in the same way
    obtain ⟨hanswers, hrest⟩ := ih (d'.ask hooks' query place).1 hask
    exact ⟨congrArg _ hanswers, hrest⟩

/-- Answers are the same however slots heal.  Take a collector whose reads answer with the
pointer that is forwarded from the stored one, where what is forwarded once stays the same when
it is forwarded again, and whose writes store what they are given.  At each read it may write
the answer back to the slot, or leave the slot alone.  Of any two such collectors, such as one
that always heals the slot and one that never does, every program is given the same answers,
whatever it does with any number of strong and weak references of members and locals: making
them anew or as copies, setting, assigning, moving and dropping them, and asking any of them
at any time, where what it does next may depend on the answers.  The handles that are left in
the end look the same to readers, although what they store may differ. -/
theorem answers_same_however_slots_heal {c : Collector σ} {c' : Collector σ'}
    (hc : c.Forwards forward steady) (hc' : c'.Forwards forward steady')
    (hforward : ∀ p, forward (forward p) = forward p) (program : HandleProgram V α)
    (handles : List (Option (Handle V))) {s : σ} {s' : σ'} (hs : steady s) (hs' : steady' s') :
    (program.run (.ofCollector c) ⟨handles, s⟩).1 =
      (program.run (.ofCollector c') ⟨handles, s'⟩).1 ∧
    (program.run (.ofCollector c) ⟨handles, s⟩).2.seen forward =
      (program.run (.ofCollector c') ⟨handles, s'⟩).2.seen forward := by
  have hstart : Desk.Alike forward steady steady' ⟨handles, s⟩ ⟨handles, s'⟩ := ⟨rfl, hs, hs'⟩
  obtain ⟨hanswers, hend⟩ :=
    program.run_alike (hc.follows hforward) (hc'.follows hforward) hstart
  exact ⟨hanswers, hend.seen⟩

end Runs

/-- The simulated collector forwards as it is told, as long as it is told the same and its
writes are not told to store anything else. -/
theorem Simulated.collector_forwards (m : Mode) (hwrites : m.writesNull = false)
    (hredirect : m.redirect = []) : Simulated.collector.Forwards m.seen (·.mode = m) where
  seen stored s hs := congrArg (·.seen stored) hs
  left stored s hs := by
    show (if s.mode.heals then s.mode.seen stored else stored) = stored ∨
      (if s.mode.heals then s.mode.seen stored else stored) = m.seen stored
    rw [hs]
    split
    · exact Or.inr rfl
    · exact Or.inl rfl
  written given _ s hs := by
    show s.mode.written given = given
    rw [hs, Mode.written, hwrites, hredirect]
    rcases given with _ | _ | _ | _ <;> rfl
  read_steady _ _ hs := hs
  write_steady _ _ _ hs := hs

/-- Object `1` has moved to address `2`.  A reference to it is read before it is copied and
assigned to a second one.  What is asked in the end depends on the first answer.  All answers
are the same, whether reads heal the slot or not, although the second reference stores `2` where
they do, and `1` where they do not. -/
theorem moved_object_seen_alike :
    let program : HandleProgram Unit Nat :=
      .act (.new .strong (some (.object 1))) (.act (.null .strong)
        (.act (.new .weak (some (.object 1)))
          (.ask .get 0 fun sight => .act (.clone 0 [] ()) (.act (.assign 1 3 [] ())
            (.ask .isNull 1 fun _ => .ask .isAlive 2 fun _ =>
              .ask (.asRef fun target => target.map (·.number)) (if sight = none then 0 else 1)
                fun _ => .act (.drop 0 []) .done)))))
    let mode (heals : Bool) : Mode := ⟨false, [(1, some (.object 2))], heals, false, []⟩
    let run (heals : Bool) :=
      program.run (.ofCollector Simulated.collector) ⟨[], ⟨mode heals, 0, []⟩⟩
    (run true).1 = (run false).1 ∧
    (run true).1 = [some (.pointer (some (.object 2))), some (.truth false), some (.truth true),
      some (.object (some 2))] ∧
    (run true).2.handle? 1 = some (.reference ⟨.strong, some (.object 2)⟩) ∧
    (run false).2.handle? 1 = some (.reference ⟨.strong, some (.object 1)⟩) := by
  intro program mode run
  have hforward : ∀ p, (mode true).seen ((mode true).seen p) = (mode true).seen p := by
    rintro (_ | _ | number | _)
    · rfl
    · rfl
    · by_cases hmoved : number = 1
      · rw [hmoved]
        rfl
      · have hunmoved : (number == 1) = false := by simp [hmoved]
        have hkeeps : (mode true).seen (some (.object number)) = some (.object number) := by
          simp [mode, Mode.seen, Mode.replace, List.lookup_cons, List.lookup_nil, hunmoved]
        rw [hkeeps, hkeeps]
    · rfl
  have hforwards (heals : Bool) :
      Simulated.collector.Forwards (mode true).seen (·.mode = mode heals) :=
    Simulated.collector_forwards (mode heals) rfl rfl
  have hsteady (heals : Bool) : (⟨mode heals, 0, []⟩ : Simulated).mode = mode heals := rfl
  obtain ⟨hanswers, -⟩ := answers_same_however_slots_heal (hforwards true) (hforwards false)
    hforward program [] (hsteady true) (hsteady false)
  exact ⟨hanswers, by decide +kernel, by decide +kernel, by decide +kernel⟩

end TracedHeap
