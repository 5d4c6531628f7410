import TracedHeap.Proofs.Registry.Honesty
import TracedHeap.Proofs.Registry.Ledger
import TracedHeap.Registry.Registration

/-! # What registered descriptors lead to

Pointers to unfinished descriptors are handed out on purpose, and descriptors are finished
while they hold them.  Only when the outermost registration has ended, all that descriptors
lead to is finished, or ruined by a registration that failed.

1. **Sessions**: the invariant of a ledger, and what code that runs inside of other
   registrations does to it (`Session.Evolves`).
2. **Clients**: a run of an honest client, given what its lookups do.
3. **Registrations**: from the claim of a cell to its end, well or badly.
4. **Lookups**, by induction on how deep registrations may nest.
5. **Runs** of outermost calls.

The main statement is `leads_to_complete_or_ruined`.
-/

namespace TracedHeap

open Relation (ReflTransGen)

variable {n depth : Nat} {κ α : Type} {knows : κ → Set DescriptorRef}

/-! ## Sessions -/

namespace Session

variable {s s' : Session n κ}

/-- The ledger is sound, and a listener that is waiting is honest. -/
structure Sane (knows : κ → Set DescriptorRef) (s : Session n κ) : Prop where
  sound : s.ledger.Sound
  listener : ∀ listener, s.listener = some listener →
    ∃ known, listener.Honest knows (fun _ _ => True) known ∧ ∀ t ∈ known, s.ledger.Available t

theorem sane_initial : (Session.initial : Session n κ).Sane knows :=
  ⟨Ledger.sound_initial, fun _ h => nomatch h⟩

theorem Sane.of_grows (h : s.Sane knows) (hgrows : s.ledger.Grows s'.ledger)
    (hlistener : s'.listener = s.listener) : s'.Sane knows := by
  refine ⟨hgrows.sound, ?_⟩
  intro listener hl
  rw [hlistener] at hl
  obtain ⟨known, hhonest, hknown⟩ := h.listener listener hl
  exact ⟨known, hhonest, fun t ht => hgrows.available t (hknown t ht)⟩

/-- What code does to a session while the registrations around it are still running. -/
structure Evolves (knows : κ → Set DescriptorRef) (s s' : Session n κ) : Prop where
  sane : s'.Sane knows
  ledger : s.ledger.Extends s'.ledger

theorem Evolves.refl (h : s.Sane knows) : s.Evolves knows s := ⟨h, .refl _⟩

theorem Evolves.trans {s'' : Session n κ} (h : s.Evolves knows s')
    (h' : s'.Evolves knows s'') : s.Evolves knows s'' :=
  ⟨h'.sane, h.ledger.trans h'.ledger⟩

/-- Events and lines of the log do not matter. -/
theorem Evolves.of_same (h : s.Sane knows) (hledger : s'.ledger = s.ledger)
    (hlistener : s'.listener = s.listener) : s.Evolves knows s' := by
  constructor
  · apply h.of_grows _ hlistener
    rw [hledger]
    exact ⟨h.sound, fun _ ht => ht⟩
  · rw [hledger]
    exact .refl _

@[simp] theorem ledger_setPhase (s : Session n κ) (cell : Fin n) (phase : Phase) :
    (s.setPhase cell phase).ledger = s.ledger.setPhase cell phase := rfl

@[simp] theorem ledger_logOutcome (s : Session n κ) (outcome : Except Fault α) :
    (s.logOutcome outcome).ledger = s.ledger := by
  cases outcome <;> rfl

@[simp] theorem listener_logOutcome (s : Session n κ) (outcome : Except Fault α) :
    (s.logOutcome outcome).listener = s.listener := by
  cases outcome <;> rfl

/-- A construction at run-time adds a descriptor at most.  If it has a result, that can be
referred to. -/
theorem Sane.construct (h : s.Sane knows) (placement : Placement) {blueprint : Blueprint}
    (htargets : ∀ t ∈ blueprint.targets, s.ledger.Available t) :
    s.Evolves knows (s.construct placement blueprint).2 ∧
      ∀ d, (s.construct placement blueprint).1 = .ok (some d) →
        (s.construct placement blueprint).2.ledger.Available d := by
  have hledger : (s.construct placement blueprint).2.ledger =
      { s.ledger with store := (s.store.construct placement blueprint).store } := by
    simp only [Session.construct, ledger_logOutcome]
    rfl
  have hlistener : (s.construct placement blueprint).2.listener = s.listener := by
    simp only [Session.construct, listener_logOutcome]
  have hresult : (s.construct placement blueprint).1 =
      (s.store.construct placement blueprint).result := rfl
  rcases s.store.construct_cases placement blueprint with ⟨hstore, hnone⟩ | ⟨memory, hstore, hmade⟩
  · rw [hstore] at hledger
    refine ⟨.of_same h hledger hlistener, ?_⟩
    intro d hd
    rw [hresult, hnone] at hd
    cases hd
  · have hledger : (s.construct placement blueprint).2.ledger = s.ledger.allocate memory := by
      rw [hledger, hstore]
      rfl
    -- what is complete leads to what the blueprint does, and what is not may lead anywhere
    have hgrows : s.ledger.Grows (s.ledger.allocate memory) := by
      apply h.sound.allocate
      intro hinit
      rcases hmade with ⟨_, hcomplete, hsame⟩ | ⟨_, hunfinished⟩
      · rw [hsame]
        exact ⟨hcomplete, htargets⟩
      · rw [hinit] at hunfinished
        cases hunfinished
    rw [← hledger] at hgrows
    refine ⟨⟨h.of_grows hgrows hlistener, ?_⟩, ?_⟩
    · rw [hledger]
      exact s.ledger.extends_allocate memory
    · intro d hd
      rw [hresult] at hd
      rcases hmade with ⟨hok, hcomplete, _⟩ | ⟨⟨fault, hfault⟩, _⟩
      · rw [hok] at hd
        cases hd
        rw [hledger]
        refine Or.inr ⟨Store.inBounds_allocate_fresh, ?_⟩
        show ((s.store.allocate memory).get s.store.fresh).initialized = true
        rw [Store.get_allocate_fresh]
        exact hcomplete.initialized
      · rw [hfault] at hd
        cases hd

end Session

/-! ## Clients -/

/-- A lookup that keeps to what code inside of other registrations may do, given that what
it needs to know is there.  An answer of it can be referred to. -/
def Serves (knows : κ → Set DescriptorRef)
    (enter : κ → Bounded n κ depth → Outcome n κ depth DescriptorRef) : Prop :=
  ∀ key (b : Bounded n κ depth), b.session.Sane knows →
    (∀ t ∈ knows key, b.session.ledger.Available t) →
    b.session.Evolves knows (enter key b).2.session ∧
      ∀ d, (enter key b).1 = .ok d → (enter key b).2.session.ledger.Available d

/-- A run of an honest client: it keeps to what code inside of other registrations may do,
and what it knows in the end is there. -/
theorem interpret_evolves {enter : κ → Bounded n κ depth → Outcome n κ depth DescriptorRef}
    (henter : Serves knows enter) {client : Client n κ α}
    {fit : Set DescriptorRef → α → Prop} {known : Set DescriptorRef} {b : Bounded n κ depth}
    (hb : b.session.Sane knows) (hknown : ∀ t ∈ known, b.session.ledger.Available t)
    (hhonest : client.Honest knows fit known) :
    b.session.Evolves knows (interpret enter client b).2.session ∧
      ∀ a, (interpret enter client b).1 = .ok a → ∃ known', fit known' a ∧
        ∀ t ∈ known', (interpret enter client b).2.session.ledger.Available t := by
  -- what is known stays available as the session evolves, and grows with each answer
  induction client generalizing known b with
  | done a =>
    refine ⟨.refl hb, ?_⟩
    intro a' ha'
    cases ha'
    exact ⟨known, hhonest, hknown⟩
  | fail fault => exact ⟨.refl hb, fun _ h => nomatch h⟩
  | log line next ih =>
    have hsame : b.session.Evolves knows (b.write line).session := .of_same hb rfl rfl
    have h := ih hsame.sane hknown hhonest
    exact ⟨hsame.trans h.1, h.2⟩
  | note event next ih =>
    have hsame : b.session.Evolves knows (b.report event).session := .of_same hb rfl rfl
    have h := ih hsame.sane hknown hhonest
    exact ⟨hsame.trans h.1, h.2⟩
  | read d next ih =>
    apply ih _ hb _ (hhonest (b.session.store.get d))
    rintro t (ht | ⟨hinit, ht⟩)
    · exact hknown t ht
    · exact hb.sound.available_of_target hinit ht
  | phase cell next ih => exact ih _ hb hknown (hhonest _)
  | slot target discipline offset next ih =>
    let made := Slot.make b.session.store target discipline offset
    have hsame : b.session.Evolves knows (b.logOutcome made).session :=
      .of_same hb (b.session.ledger_logOutcome made) (b.session.listener_logOutcome made)
    have h := ih made hsame.sane (fun t ht => hsame.ledger.available hb.sound (hknown t ht))
      (hhonest made fun slot hslot => Slot.make_descriptor hslot)
    exact ⟨hsame.trans h.1, h.2⟩
  | construct placement blueprint next ih =>
    obtain ⟨hmade, hresult⟩ := hb.construct placement fun t ht => hknown t (hhonest.1 t ht)
    have hknown' : ∀ t ∈ known ∪ {t | (b.construct placement blueprint).1 = .ok (some t)},
        (b.construct placement blueprint).2.session.ledger.Available t := by
      rintro t (ht | ht)
      · exact hmade.ledger.available hb.sound (hknown t ht)
      · exact hresult t ht
    have h := ih _ (b := (b.construct placement blueprint).2) hmade.sane hknown' (hhonest.2 _)
    exact ⟨hmade.trans h.1, h.2⟩
  | lookup key next ih =>
    obtain ⟨hfound, hresult⟩ := henter key b hb fun t ht => hknown t (hhonest.1 ht)
    have hknown' : ∀ t ∈ known ∪ {t | (enter key b).1 = .ok t},
        (enter key b).2.session.ledger.Available t := by
      rintro t (ht | ht)
      · exact hfound.ledger.available hb.sound (hknown t ht)
      · exact hresult t ht
    have h := ih _ hfound.sane hknown' (hhonest.2 _)
    exact ⟨hfound.trans h.1, h.2⟩

/-! ## Registrations -/

section Registration

variable {enter : κ → Bounded n κ depth → Outcome n κ depth DescriptorRef}
  {b : Bounded n κ depth} {known : Set DescriptorRef}

theorem announce_evolves (henter : Serves knows enter) (cell : Fin n) (request : Request)
    (hb : b.session.Sane knows) :
    b.session.Evolves knows (announce enter cell request b).session := by
  unfold announce
  simp only
  split
  · exact .of_same hb rfl rfl
  · rename_i listener hlistener
    obtain ⟨known, hhonest, hknown⟩ := hb.listener listener hlistener
    let line := LogLine.registering cell request.size request.hasArray request.slotCount
    -- the listener is run only once
    let quiet := (b.write line).update (fun s => { s with listener := none }) fun _ => Nat.le_refl _
    have hquiet : quiet.session.Sane knows := ⟨hb.sound, fun _ h => nomatch h⟩
    have h := (interpret_evolves henter hquiet hknown hhonest).1
    exact ⟨h.sane, h.ledger⟩

theorem ledger_reserve (cell : Fin n) (request : Request) (b : Bounded n κ depth) :
    (reserve cell request b).2.session.ledger =
      (b.session.ledger.allocate ((Descriptor.blank request.slotCount).writeHeader request.size
        request.hasArray)).publish cell (reserve cell request b).1 := rfl

theorem ledger_abandon (cell : Fin n) (d : DescriptorRef) (b : Bounded n κ depth) :
    (abandon cell (some d) b).session.ledger =
      (b.session.ledger.overwrite d (b.session.store.get d).poison).setPhase cell .poisoned := rfl

/-- The memory that is reserved for a descriptor is published before anything is built. -/
theorem reserve_spec {cell : Fin n} (request : Request) (hb : b.session.Sane knows)
    (hphase : (b.session.ledger.cell cell).phase = .registering)
    (haddress : (b.session.ledger.cell cell).address = none) :
    (reserve cell request b).2.session.Sane knows ∧
      b.session.ledger.Grows (reserve cell request b).2.session.ledger ∧
      (reserve cell request b).2.session.ledger.cell cell =
        ⟨some (reserve cell request b).1, .registering⟩ ∧
      (reserve cell request b).2.session.store.InBounds (reserve cell request b).1 ∧
      ((reserve cell request b).2.session.store.get (reserve cell request b).1).slots = [] := by
  let header := (Descriptor.blank request.slotCount).writeHeader request.size request.hasArray
  have hallocated : b.session.ledger.Grows (b.session.ledger.allocate header) :=
    hb.sound.allocate fun hinit => nomatch hinit
  have hget : (b.session.store.allocate header).get b.session.store.fresh = header :=
    Store.get_allocate_fresh
  have hgrows : b.session.ledger.Grows (reserve cell request b).2.session.ledger := by
    refine hallocated.trans ?_
    refine hallocated.sound.publish hphase haddress Store.inBounds_allocate_fresh ?_ ?_
    · exact congrArg (·.initialized) hget
    · -- the address is fresh, so that no cell has it
      exact fun hd => Store.not_inBounds_fresh (hb.sound.published_inBounds hd)
  refine ⟨hb.of_grows hgrows rfl, hgrows, ?_, Store.inBounds_allocate_fresh, ?_⟩
  · rw [ledger_reserve, Ledger.cell_publish_self, Ledger.cell_allocate, hphase]
  · exact congrArg (·.slots) hget

/-- The build function and the writing of the descriptor come to this: some code is run
inside of the registration, and then the descriptor is written, or spoilt. -/
theorem complete_spec (henter : Serves knows enter) {call : Call n κ} {d : DescriptorRef}
    (hb : b.session.Sane knows) (hknown : ∀ t ∈ known, b.session.ledger.Available t)
    (hbuild : call.build.Honest knows Parts.Fit known) (hbounds : b.session.store.InBounds d)
    (hblank : (b.session.store.get d).slots = []) :
    ∃ mid : Session n κ, b.session.Evolves knows mid ∧
      (complete enter call d b).2.session.listener = mid.listener ∧
      (∀ memory, (complete enter call d b).2.session.ledger.overwrite d memory =
        mid.ledger.overwrite d memory) ∧
      ((complete enter call d b).1 = .ok () → ∃ memory,
        (complete enter call d b).2.session.ledger = mid.ledger.overwrite d memory ∧
          memory.Complete ∧ ∀ t ∈ memory.targets, mid.ledger.Available t) := by
  obtain ⟨hevolves, hresult⟩ := interpret_evolves henter hb hknown hbuild
  unfold complete
  rcases hrun : interpret enter call.build b with ⟨fault | parts, b'⟩
  · rw [hrun] at hevolves
    exact ⟨b'.session, hevolves, rfl, fun _ => rfl, fun h => nomatch h⟩
  · rw [hrun] at hevolves hresult
    simp only at hevolves hresult ⊢
    obtain ⟨known', hfit, hknown'⟩ := hresult parts rfl
    split
    · let made := (b'.session.store.get d).compose 0 (call.request.blueprint parts)
      have hledger : ((b'.overwrite d made.2).logOutcome made.1).session.ledger =
          b'.session.ledger.overwrite d made.2 := Session.ledger_logOutcome _ made.1
      refine ⟨b'.session, hevolves, Session.listener_logOutcome _ made.1, ?_, ?_⟩
      · intro memory
        rw [hledger, Ledger.overwrite_overwrite]
      · -- nobody else has written that memory in the meantime
        intro hok
        have hget : b'.session.store.get d = b.session.store.get d :=
          Store.get_of_prefix hevolves.ledger.store hbounds
        rw [← hget] at hblank
        obtain ⟨hcomplete, htargets⟩ := Descriptor.compose_ok hblank hok
        refine ⟨made.2, hledger, hcomplete, ?_⟩
        intro t ht
        rw [htargets, Request.targets_blueprint] at ht
        exact hknown' t (hfit t ht)
    · exact ⟨b'.session, hevolves, rfl, fun _ => rfl, fun h => nomatch h⟩

/-- The end of a registration whose address is published. -/
def conclude (cell : Fin n) (d : DescriptorRef) :
    Outcome n κ depth Unit → Outcome n κ depth DescriptorRef
  | (.error fault, b) => (.error fault, abandon cell (some d) b)
  | (.ok (), b) => (.ok d, (b.finish cell).write (.registered cell))

theorem register_of_layout (call : Call n κ) (b : Bounded n κ depth) {layout : Layout}
    (h : Descriptor.layout? call.request.slotCount = some layout) :
    register enter call b =
      let reserved := reserve call.cell call.request (announce enter call.cell call.request b)
      conclude call.cell reserved.1 (complete enter call reserved.1 reserved.2) := by
  unfold register conclude
  simp only [h]
  split
  · rename_i hrun
    rw [hrun]
  · rename_i hrun
    rw [hrun]

/-- What follows on the publication: whether the descriptor is written or spoilt, the
registration ends, and the cell agrees with the descriptor. -/
theorem publish_settles (henter : Serves knows enter) {call : Call n κ} {d : DescriptorRef}
    (hb : b.session.Sane knows) (hcell : b.session.ledger.cell call.cell = ⟨some d, .registering⟩)
    (hknown : ∀ t ∈ known, b.session.ledger.Available t)
    (hbuild : call.build.Honest knows Parts.Fit known) (hbounds : b.session.store.InBounds d)
    (hblank : (b.session.store.get d).slots = []) :
    ∃ (mid : Session n κ) (memory : Descriptor) (phase : Phase), b.session.Evolves knows mid ∧
      (phase = .registered ∨ phase = .poisoned) ∧
      (conclude call.cell d (complete enter call d b)).2.session.ledger =
        (mid.ledger.overwrite d memory).setPhase call.cell phase ∧
      (conclude call.cell d (complete enter call d b)).2.session.Sane knows ∧
      ∀ d', (conclude call.cell d (complete enter call d b)).1 = .ok d' →
        (conclude call.cell d (complete enter call d b)).2.session.ledger.Available d' := by
  obtain ⟨mid, hmid, hlistener, hset, hwritten⟩ :=
    complete_spec henter hb hknown hbuild hbounds hblank
  -- the cell was claimed, so that the code in between has left it alone
  have hmidcell : mid.ledger.cell call.cell = ⟨some d, .registering⟩ := by
    rw [← hcell]
    refine (hmid.ledger.cells call.cell).claimed ?_
    rw [hcell]
    exact Phase.registering_ne_unclaimed
  have hphase : (mid.ledger.cell call.cell).phase = .registering := congrArg (·.phase) hmidcell
  have haddress : (mid.ledger.cell call.cell).address = some d := congrArg (·.address) hmidcell
  rcases hrun : complete enter call d b with ⟨fault | _, b'⟩
  · rw [hrun] at hlistener hset
    let memory := (b'.session.store.get d).poison
    have hgrows :
        mid.ledger.Grows ((mid.ledger.overwrite d memory).setPhase call.cell .poisoned) :=
      hmid.sane.sound.settle hphase haddress (Or.inr ⟨rfl, Descriptor.ruined_poison _⟩)
    have hledger : (abandon call.cell (some d) b').session.ledger =
        (mid.ledger.overwrite d memory).setPhase call.cell .poisoned := by
      rw [ledger_abandon, ← hset]
    refine ⟨mid, memory, _, hmid, Or.inr rfl, hledger, ?_, fun _ h => nomatch h⟩
    rw [← hledger] at hgrows
    exact hmid.sane.of_grows hgrows hlistener
  · rw [hrun] at hlistener hwritten
    obtain ⟨memory, hmemory, hcomplete, htargets⟩ := hwritten rfl
    have hgrows :
        mid.ledger.Grows ((mid.ledger.overwrite d memory).setPhase call.cell .registered) :=
      hmid.sane.sound.settle hphase haddress (Or.inl ⟨rfl, hcomplete, htargets⟩)
    have hledger : ((b'.finish call.cell).write (.registered call.cell)).session.ledger =
        (mid.ledger.overwrite d memory).setPhase call.cell .registered := by
      rw [← hmemory]
      rfl
    rw [← hledger] at hgrows
    refine ⟨mid, memory, _, hmid, Or.inl rfl, hledger, hmid.sane.of_grows hgrows hlistener, ?_⟩
    intro d' hd'
    cases hd'
    exact hgrows.available d (Or.inl ⟨call.cell, haddress⟩)

/-- A registration whose cell has been claimed keeps the invariant and settles the cell.
Its result can be referred to. -/
theorem register_settles (henter : Serves knows enter) {call : Call n κ}
    (hb : b.session.Sane knows) (hphase : (b.session.ledger.cell call.cell).phase = .registering)
    (haddress : (b.session.ledger.cell call.cell).address = none)
    (hknown : ∀ t ∈ known, b.session.ledger.Available t)
    (hbuild : call.build.Honest knows Parts.Fit known) :
    (register enter call b).2.session.Sane knows ∧
      b.session.ledger.Settled call.cell (register enter call b).2.session.ledger ∧
      ∀ d, (register enter call b).1 = .ok d →
        (register enter call b).2.session.ledger.Available d := by
  have hannounce := announce_evolves henter call.cell call.request hb
  have hcell : (announce enter call.cell call.request b).session.ledger.cell call.cell =
      b.session.ledger.cell call.cell := by
    refine (hannounce.ledger.cells call.cell).claimed ?_
    rw [hphase]
    decide
  cases hlayout : Descriptor.layout? call.request.slotCount with
  | none =>
    -- no memory is large enough: the cell is poisoned without an address
    unfold register
    simp only [hlayout]
    generalize announce enter call.cell call.request b = b₁ at hannounce hcell ⊢
    have hagrees : Cell.Agrees b₁.session.store
        ⟨(b₁.session.ledger.cell call.cell).address, .poisoned⟩ := by
      intro d hd
      simp only [hcell, haddress] at hd
      cases hd
    have hgrows := hannounce.sane.sound.setPhase call.cell hagrees
    exact ⟨hannounce.sane.of_grows hgrows rfl, hannounce.ledger.settled (Or.inr rfl),
      fun _ h => nomatch h⟩
  | some layout =>
    rw [register_of_layout call b hlayout]
    simp only
    generalize announce enter call.cell call.request b = b₁ at hannounce hcell ⊢
    obtain ⟨hsane, hgrows, hreserved, hbounds, hblank⟩ :=
      reserve_spec call.request hannounce.sane (by rw [hcell, hphase]) (by rw [hcell, haddress])
    have hknown₁ : ∀ t ∈ known,
        (reserve call.cell call.request b₁).2.session.ledger.Available t := fun t ht =>
      hgrows.available t (hannounce.ledger.available hb.sound (hknown t ht))
    obtain ⟨mid, memory, phase, hmid, hend, hledger, hfinal, hresult⟩ :=
      publish_settles henter hsane hreserved hknown₁ hbuild hbounds hblank
    refine ⟨hfinal, ?_, hresult⟩
    rw [hledger]
    exact hannounce.ledger.settled_reserved hmid.ledger hend

end Registration

/-! ## Lookups -/

/-- The build functions of all calls are honest. -/
def HonestCalls (knows : κ → Set DescriptorRef) (calls : κ → Call n κ) : Prop :=
  ∀ key, (calls key).build.Honest knows Parts.Fit (insert .boxed (knows key))

theorem Cell.address_of_entry_found {c : Cell} {d : DescriptorRef} (h : c.entry = .found d) :
    c.address = some d := by
  unfold entry at h
  split at h
  · split at h
    · cases h
    · cases h
      assumption
  · split at h <;> cases h

/-- Claiming a cell keeps the invariant. -/
theorem claim_spec {b : Bounded n κ (depth + 1)} (hb : b.session.Sane knows) {cell : Fin n}
    (hfree : b.session.entry cell = .free) :
    (b.claim cell hfree).session.Sane knows ∧
      b.session.ledger.Grows (b.claim cell hfree).session.ledger ∧
      (b.claim cell hfree).session.ledger.cell cell = ⟨none, .registering⟩ := by
  have hphase : (b.session.ledger.cell cell).phase = .unclaimed := Cell.phase_of_entry_free hfree
  have haddress : (b.session.ledger.cell cell).address = none :=
    (hb.sound.agrees cell).address_of_unclaimed hphase
  have hledger : (b.claim cell hfree).session.ledger =
      b.session.ledger.setPhase cell .registering := b.session.ledger_setPhase cell _
  have hgrows : b.session.ledger.Grows (b.claim cell hfree).session.ledger := by
    rw [hledger]
    apply hb.sound.setPhase cell
    intro d hd
    rw [haddress] at hd
    cases hd
  refine ⟨hb.of_grows hgrows rfl, hgrows, ?_⟩
  rw [hledger, Ledger.cell_setPhase_self, haddress]

/-- Lookups of honest calls are what honest clients expect of lookups. -/
theorem HonestCalls.serves {calls : κ → Call n κ} (hcalls : HonestCalls knows calls)
    (hresolve : ∀ {call : Call n κ} {b : Bounded n κ depth} {known : Set DescriptorRef},
      b.session.Sane knows → (∀ t ∈ known, b.session.ledger.Available t) →
      call.build.Honest knows Parts.Fit known →
      b.session.Evolves knows (resolve calls depth call b).2.session ∧
        ∀ d, (resolve calls depth call b).1 = .ok d →
          (resolve calls depth call b).2.session.ledger.Available d) :
    Serves knows fun key => resolve calls depth (calls key) := by
  intro key b hb hknown
  have hknown' : ∀ t ∈ insert .boxed (knows key), b.session.ledger.Available t := by
    rintro t (rfl | ht)
    · exact hb.sound.available_boxed
    · exact hknown t ht
  exact hresolve hb hknown' (hcalls key)

/-- A published address can be referred to. -/
theorem found_available {b : Bounded n κ depth} {cell : Fin n} {d : DescriptorRef}
    (hfound : b.session.entry cell = .found d) : b.session.ledger.Available d :=
  Or.inl ⟨cell, Cell.address_of_entry_found hfound⟩

/-- A lookup keeps to what code inside of other registrations may do. -/
theorem resolve_evolves {calls : κ → Call n κ} (hcalls : HonestCalls knows calls)
    (depth : Nat) {call : Call n κ} {b : Bounded n κ depth} {known : Set DescriptorRef}
    (hb : b.session.Sane knows) (hknown : ∀ t ∈ known, b.session.ledger.Available t)
    (hbuild : call.build.Honest knows Parts.Fit known) :
    b.session.Evolves knows (resolve calls depth call b).2.session ∧
      ∀ d, (resolve calls depth call b).1 = .ok d →
        (resolve calls depth call b).2.session.ledger.Available d := by
  induction depth generalizing call known with
  | zero =>
    unfold resolve
    split
    · rename_i d hfound
      refine ⟨.refl hb, ?_⟩
      intro d' hd'
      cases hd'
      exact found_available hfound
    · exact ⟨.of_same hb rfl rfl, fun _ h => nomatch h⟩
    · rename_i hfree
      exact absurd hfree (b.entry_ne_free call.cell)
  | succ depth ih =>
    unfold resolve
    split
    · rename_i d hfound
      refine ⟨.refl hb, ?_⟩
      intro d' hd'
      cases hd'
      exact found_available hfound
    · exact ⟨.of_same hb rfl rfl, fun _ h => nomatch h⟩
    · rename_i hfree
      -- the lookups of the build function nest one level less deep
      have henter : Serves knows fun key => resolve calls depth (calls key) := hcalls.serves ih
      obtain ⟨hsane, hgrows, hcell⟩ := claim_spec hb hfree
      obtain ⟨hfinal, hsettled, hresult⟩ :=
        register_settles henter hsane (congrArg (·.phase) hcell) (congrArg (·.address) hcell)
          (fun t ht => hgrows.available t (hknown t ht)) hbuild
      exact ⟨⟨hfinal, hsettled.extends (Cell.phase_of_entry_free hfree)⟩, hresult⟩

/-! ## Runs -/

namespace Session

/-- The sessions between the outermost calls of a run, whatever came of each.  What the
outermost code knows is what may be referred to. -/
inductive Reached (knows : κ → Set DescriptorRef) (calls : κ → Call n κ) : Session n κ → Prop
  /-- Nothing has happened. -/
  | initial : Reached knows calls .initial
  /-- Some code is run. -/
  | ran {s : Session n κ} {α : Type} {client : Client n κ α} (hs : Reached knows calls s)
      (hhonest : client.Honest knows (fun _ _ => True) {t | s.ledger.Available t}) :
      Reached knows calls (s.run calls client).2
  /-- A type is asked for. -/
  | resolved {s : Session n κ} {call : Call n κ} (hs : Reached knows calls s)
      (hhonest : call.build.Honest knows Parts.Fit {t | s.ledger.Available t}) :
      Reached knows calls (s.resolve calls call).2
  /-- Some code is told to wait for the next registration. -/
  | listened {s : Session n κ} {listener : Client n κ Unit} (hs : Reached knows calls s)
      (hhonest : listener.Honest knows (fun _ _ => True) {t | s.ledger.Available t}) :
      Reached knows calls { s with listener := some listener }

/-- Between outermost calls the invariant holds, and no registration is running. -/
theorem Reached.sane_quiet {calls : κ → Call n κ} (hcalls : HonestCalls knows calls)
    {s : Session n κ} (hreached : s.Reached knows calls) : s.Sane knows ∧ s.ledger.Quiet := by
  -- between outermost calls nothing is running around the code that comes next
  induction hreached with
  | initial => exact ⟨sane_initial, Ledger.quiet_initial⟩
  | @ran s α client _ hhonest ih =>
    rcases ih with ⟨hsane, hquiet⟩
    have henter : Serves knows fun key => TracedHeap.resolve calls s.unclaimed (calls key) :=
      hcalls.serves (resolve_evolves hcalls s.unclaimed)
    have hevolves : s.Evolves knows (s.run calls client).2 :=
      (interpret_evolves (b := s.bounded) henter hsane (fun _ ht => ht) hhonest).1
    exact ⟨hevolves.sane, hevolves.ledger.quiet hquiet⟩
  | @resolved s call _ hhonest ih =>
    rcases ih with ⟨hsane, hquiet⟩
    have hevolves : s.Evolves knows (s.resolve calls call).2 :=
      (resolve_evolves (b := s.bounded) hcalls _ hsane (fun _ ht => ht) hhonest).1
    exact ⟨hevolves.sane, hevolves.ledger.quiet hquiet⟩
  | @listened s listener _ hhonest ih =>
    rcases ih with ⟨hsane, hquiet⟩
    refine ⟨⟨hsane.sound, ?_⟩, hquiet⟩
    intro l hl
    cases hl
    exact ⟨_, hhonest, fun _ ht => ht⟩

/-- What registered descriptors lead to.  Take any run of honest code and honest build
functions over any graph of types, with faults at any depth, survived anywhere.  Whenever
an outermost call has ended, no registration is running, every registered type has a
complete descriptor, and all that a published descriptor leads to, in any number of steps,
is complete or ruined.  If no registration has failed, so that no cell is poisoned, it is
complete. -/
theorem leads_to_complete_or_ruined {calls : κ → Call n κ} (hcalls : HonestCalls knows calls)
    {s : Session n κ} (hreached : s.Reached knows calls) :
    (∀ cell : Fin n, (s.cells.get cell).phase ≠ .registering) ∧
    (∀ cell : Fin n, (s.cells.get cell).phase = .registered →
      ∃ d, (s.cells.get cell).address = some d ∧ (s.store.get d).Complete) ∧
    (∀ (cell : Fin n) d e, (s.cells.get cell).address = some d → ReflTransGen s.store.Leads d e →
      s.store.InBounds e ∧ ((s.store.get e).Complete ∨ (s.store.get e).Ruined)) ∧
    ((∀ cell : Fin n, (s.cells.get cell).phase ≠ .poisoned) →
      ∀ (cell : Fin n) d e, (s.cells.get cell).address = some d → ReflTransGen s.store.Leads d e →
        (s.store.get e).Complete) := by
  obtain ⟨hsane, hquiet⟩ := hreached.sane_quiet hcalls
  have hreach : ∀ (cell : Fin n) d e, (s.cells.get cell).address = some d →
      ReflTransGen s.store.Leads d e → s.store.InBounds e ∧ ((s.store.get e).Complete ∨
        (s.store.get e).Ruined ∧ ∃ cell : Fin n, (s.cells.get cell).phase = .poisoned) := by
    intro cell d e haddress hleads
    refine hsane.sound.complete_or_ruined hquiet ?_
    exact hsane.sound.available_of_leads hquiet (Or.inl ⟨cell, haddress⟩) hleads
  refine ⟨hquiet, ?_, ?_, ?_⟩
  · intro cell hphase
    obtain ⟨d, haddress, hbounds, hinit⟩ := (hsane.sound.agrees cell).of_registered hphase
    exact ⟨d, haddress, (hsane.sound.finished d hbounds hinit).1⟩
  · intro cell d e haddress hleads
    rcases hreach cell d e haddress hleads with ⟨hbounds, hcomplete | ⟨hruined, _⟩⟩
    · exact ⟨hbounds, Or.inl hcomplete⟩
    · exact ⟨hbounds, Or.inr hruined⟩
  · intro hwell cell d e haddress hleads
    rcases hreach cell d e haddress hleads with ⟨_, hcomplete | ⟨_, other, hpoisoned⟩⟩
    · exact hcomplete
    · exact absurd hpoisoned (hwell other)

/-- Two types whose descriptors refer to each other. -/
def cyclic (key : Fin 2) : Call 2 (Fin 2) :=
  Declaration.call key Client.get ⟨8, false, none, [⟨.type (1 - key), .strong, 0⟩]⟩

theorem honest_cyclic (key : Fin 2) {known : Set DescriptorRef} (hboxed : .boxed ∈ known) :
    (cyclic key).build.Honest (fun _ => ∅) Parts.Fit known := by
  have hfind : HonestFind (fun _ => ∅) (Client.get : Fin 2 → Client 2 (Fin 2) DescriptorRef) :=
    fun _ known _ => Client.honest_get (Set.empty_subset known)
  exact Declaration.honest_build hfind hboxed ⟨8, false, none, [⟨.type (1 - key), .strong, 0⟩]⟩

/-- Asking for one of two types that refer to each other registers both, and whatever
number of steps is taken from there, it leads to a complete descriptor. -/
theorem cyclic_types_complete :
    let s := (Session.initial.resolve cyclic (cyclic 0)).2
    s.store.Leads ⟨1⟩ ⟨2⟩ ∧ s.store.Leads ⟨2⟩ ⟨1⟩ ∧
      ∀ e, ReflTransGen s.store.Leads ⟨1⟩ e → (s.store.get e).Complete := by
  intro s
  have hcalls : HonestCalls (fun _ => ∅) cyclic := fun key =>
    honest_cyclic key (Set.mem_insert _ _)
  have hreached : s.Reached (fun _ => ∅) cyclic :=
    .resolved .initial (honest_cyclic 0 Ledger.sound_initial.available_boxed)
  have hwell : ∀ cell : Fin 2, (s.cells.get cell).phase ≠ .poisoned := by decide +kernel
  refine ⟨by decide +kernel, by decide +kernel, ?_⟩
  intro e hleads
  exact (leads_to_complete_or_ruined hcalls hreached).2.2.2 hwell 0 ⟨1⟩ e (by decide +kernel) hleads

/-- Two types that refer to each other, of which the first declares one slot more than it
builds.  Neither build function ever fails. -/
def miscounted (key : Fin 2) : Call 2 (Fin 2) :=
  ⟨key, ⟨8, false, 2 - key⟩, .lookup (1 - key) fun found =>
    .done ⟨.empty, .ofList [⟨found.toOption, .strong, 0⟩]⟩⟩

theorem honest_miscounted (key : Fin 2) {known : Set DescriptorRef} (hboxed : .boxed ∈ known) :
    (miscounted key).build.Honest (fun _ => ∅) Parts.Fit known := by
  refine ⟨Set.empty_subset known, ?_⟩
  intro found
  refine List.forall_mem_cons.2 ⟨Or.inl hboxed, List.forall_mem_singleton.2 ?_⟩
  cases found with
  | error fault => exact Or.inl hboxed
  | ok d => exact Or.inr rfl

/-- That no build function fails is not enough.  A registration also fails if its build
function returns another number of slots than was declared; by then a type that refers to
it may have been registered, whose descriptor leads to a ruined one for good. -/
theorem miscounted_type_ruins_target :
    let s := (Session.initial.resolve miscounted (miscounted 0)).2
    HonestCalls (fun _ => ∅) miscounted ∧ (∀ key, (miscounted key).build.NeverFails) ∧
      s.Reached (fun _ => ∅) miscounted ∧ s.cells.get 1 = ⟨some ⟨2⟩, .registered⟩ ∧
      s.store.Leads ⟨2⟩ ⟨1⟩ ∧ (s.store.get ⟨1⟩).initialized = false := by
  intro s
  refine ⟨fun key => honest_miscounted key (Set.mem_insert _ _), fun _ _ => trivial, ?_, ?_⟩
  · exact .resolved .initial (honest_miscounted 0 Ledger.sound_initial.available_boxed)
  · decide +kernel

end Session

end TracedHeap
