import TracedHeap.Proofs.Registry.Descriptions

/-! # Registration of declared types

The order in which types are asked for decides which of them are found unfinished, which one
is outermost, and, where some are illegal, which ones fail.  It does not decide what their
descriptors say, nor whether a type succeeds from which no illegal one can be reached.

1. **Clients**: what code that works for declared types comes to (`Meets`), and one such
   code after another.
2. **Build functions** of declared types, given that lookups do what they should (`Finds`).
3. **Registrations** of declared types.
4. **Lookups**, by induction on how deep registrations may nest.
5. **Requests**, one after the other.

The main statement is `declared_types_are_registered_as_declared`.
-/

namespace TracedHeap

open Relation (ReflTransGen)

variable {n depth : Nat} {κ α β : Type}

/-! ## Clients -/

/-- Code that consists of two parts is run one part after the other. -/
theorem interpret_bind (enter : κ → Bounded n κ depth → Outcome n κ depth DescriptorRef)
    (x : Client n κ α) (f : α → Client n κ β) (b : Bounded n κ depth) :
    interpret enter (x >>= f) b =
      match interpret enter x b with
      | (.error fault, b) => (.error fault, b)
      | (.ok a, b) => interpret enter (f a) b := by
  show interpret enter (x.bind f) b = _
  induction x generalizing b with
  | done a => rfl
  | fail fault => rfl
  | log line next ih => exact ih _
  | note event next ih => exact ih _
  | read d next ih => exact ih _ b
  | phase cell next ih => exact ih _ b
  | slot target discipline offset next ih => exact ih _ _
  | construct placement blueprint next ih => exact ih _ _
  | lookup key next ih => exact ih _ _

theorem interpret_ofExcept (enter : κ → Bounded n κ depth → Outcome n κ depth DescriptorRef)
    (outcome : Except Fault α) (b : Bounded n κ depth) :
    interpret enter (.ofExcept outcome) b = (outcome, b) := by
  cases outcome <;> rfl

section Declared

variable (declared : Fin n → Declaration (Fin n)) (base : Ledger n)

/-- Nobody listens to the log, and what the ledger says of the declared types is true. -/
structure Session.Truthful (s : Session n (Fin n)) : Prop where
  sane : s.Sane fun _ => ∅
  listener : s.listener = none
  ledger : Ledger.Truthful declared base s.ledger

/-- What code that works for declared types comes to.  It keeps what is said of them true, and
leaves the registrations around it alone; its result fits, and it has a reason to fail. -/
structure Meets (b : Bounded n (Fin n) depth) (fit : Ledger n → α → Prop) (reason : Prop)
    (outcome : Outcome n (Fin n) depth α) : Prop where
  truthful : outcome.2.session.Truthful declared base
  ledger : b.session.ledger.Extends outcome.2.session.ledger
  result : ∀ a, outcome.1 = .ok a → fit outcome.2.session.ledger a
  fault : ∀ fault, outcome.1 = .error fault → reason

/-- A lookup of a declared type finds its published address, or an illegal type can be
reached. -/
def Finds (enter : Fin n → Bounded n (Fin n) depth → Outcome n (Fin n) depth DescriptorRef) :
    Prop :=
  ∀ t (b : Bounded n (Fin n) depth), b.session.Truthful declared base →
    Meets declared base b (fun l d => (l.cell t).address = some d)
      ((base.cell t).phase ≠ .poisoned → base.ReachesIllegal declared t) (enter t b)

/-- The slot of the member cannot be had. -/
def Ledger.Blocked (m : Member (Fin n)) : Prop :=
  base.Misplaced declared m ∨
    ∃ t, m.target = .type t ∧ ((base.cell t).phase ≠ .poisoned → base.ReachesIllegal declared t)

/-- The parts are those that are declared. -/
structure Ledger.Fits (l : Ledger n) (declaration : Declaration (Fin n)) (parts : Parts) :
    Prop where
  array : l.array? declaration.array = some parts.array
  slots : ∃ slots, parts.source = .ofList slots ∧
    declaration.members.map l.slot? = slots.map some

end Declared

/-- As many slots are reported as members are declared. -/
theorem Ledger.Fits.reported {l : Ledger n} {declaration : Declaration (Fin n)} {parts : Parts}
    (h : l.Fits declaration parts) :
    parts.source.reported = declaration.members.length := by
  obtain ⟨slots, hsource, hslots⟩ := h.slots
  have hlength := congrArg List.length hslots
  rw [List.length_map, List.length_map] at hlength
  rw [hsource, hlength]
  rfl

section Runs

variable {declared : Fin n → Declaration (Fin n)} {base : Ledger n}
  {enter : Fin n → Bounded n (Fin n) depth → Outcome n (Fin n) depth DescriptorRef}
  {b : Bounded n (Fin n) depth}

theorem Session.Truthful.of_same {s s' : Session n (Fin n)} (h : s.Truthful declared base)
    (hledger : s'.ledger = s.ledger) (hlistener : s'.listener = s.listener) :
    s'.Truthful declared base := by
  refine ⟨(Evolves.of_same h.sane hledger hlistener).sane, hlistener.trans h.listener, ?_⟩
  rw [hledger]
  exact h.ledger

section Meets

variable {fit fit' : Ledger n → α → Prop} {reason reason' : Prop}

/-- Code that changes nothing, and has its result. -/
theorem Meets.done {a : α} (hb : b.session.Truthful declared base) (ha : fit b.session.ledger a) :
    Meets declared base b fit reason (.ok a, b) := by
  refine ⟨hb, .refl _, ?_, fun _ h => nomatch h⟩
  intro a' ha'
  cases ha'
  exact ha

theorem Meets.mono {outcome : Outcome n (Fin n) depth α}
    (h : Meets declared base b fit reason outcome)
    (hfit : ∀ l a, b.session.ledger.Extends l → fit l a → fit' l a) (hreason : reason → reason') :
    Meets declared base b fit' reason' outcome :=
  ⟨h.truthful, h.ledger, fun a ha => hfit _ a h.ledger (h.result a ha),
    fun fault hfault => hreason (h.fault fault hfault)⟩

theorem Meets.bind {x : Client n (Fin n) α} {f : α → Client n (Fin n) β}
    {fit' : Ledger n → β → Prop} (hx : Meets declared base b fit reason (interpret enter x b))
    (hf : ∀ a (b' : Bounded n (Fin n) depth), b'.session.Truthful declared base →
      fit b'.session.ledger a → Meets declared base b' fit' reason (interpret enter (f a) b')) :
    Meets declared base b fit' reason (interpret enter (x >>= f) b) := by
  rw [interpret_bind]
  rcases hrun : interpret enter x b with ⟨fault | a, b'⟩
  · rw [hrun] at hx
    exact ⟨hx.truthful, hx.ledger, nofun, fun _ _ => hx.fault fault rfl⟩
  · rw [hrun] at hx
    have hrest := hf a b' hx.truthful (hx.result a rfl)
    exact ⟨hrest.truthful, hx.ledger.trans hrest.ledger, hrest.result, hrest.fault⟩

end Meets

/-! ## Build functions -/

theorem Target.meets_find (henter : Finds declared base enter)
    (hb : b.session.Truthful declared base) (target : Target (Fin n)) :
    Meets declared base b (fun l d => l.target? target = some d)
      (∃ t, target = .type t ∧
        ((base.cell t).phase ≠ .poisoned → base.ReachesIllegal declared t))
      (interpret enter (target.find Client.get) b) := by
  cases target with
  | boxed => exact .done hb rfl
  | type t =>
    have hget : interpret enter ((Target.type t).find Client.get) b = enter t b :=
      interpret_ofExcept enter _ _
    rw [hget]
    exact (henter t b hb).mono (fun _ _ _ h => h) fun h => ⟨t, rfl, h⟩

/-- The slot of a member is had as declared, unless the member is misplaced or its target
cannot be had. -/
theorem Member.meets_slot (hbase : base.Ready declared) (henter : Finds declared base enter)
    (hb : b.session.Truthful declared base) (m : Member (Fin n)) :
    Meets declared base b (fun l slot => l.slot? m = some slot ∧ ¬ base.Misplaced declared m)
      (base.Blocked declared m) (interpret enter (m.slot Client.get) b) := by
  have hfind := (Target.meets_find henter hb m.target).mono (fun _ _ _ h => h)
    fun h => (Or.inr h : base.Blocked declared m)
  refine hfind.bind ?_
  intro d b' hb' htarget
  let made := Slot.make b'.session.store (some d) m.discipline m.offset
  have hrun : interpret enter (Client.makeSlot (some d) m.discipline m.offset) b' =
      (made, b'.logOutcome made) := interpret_ofExcept enter _ _
  have hledger : (b'.logOutcome made).session.ledger = b'.session.ledger :=
    Session.ledger_logOutcome _ _
  have htruthful : (b'.logOutcome made).session.Truthful declared base :=
    hb'.of_same hledger (Session.listener_logOutcome _ _)
  -- the check sees what the declarations say
  have hmisplaced : base.Misplaced declared m ↔
      ¬ (⟨some d, m.discipline, m.offset⟩ : Slot).Suits b'.session.store := by
    rw [Slot.not_suits_iff]
    refine and_congr_right fun _ => ?_
    show _ ↔ d = .boxed ∨ (b'.session.store.get d).hasArray = true
    cases hm : m.target with
    | boxed =>
      rw [hm] at htarget
      cases htarget
      exact ⟨fun _ => Or.inl rfl, fun _ => Or.inl rfl⟩
    | type t =>
      rw [hm] at htarget
      have haddress : (b'.session.ledger.cell t).address = some d := htarget
      have harray : base.endsInArray declared t = (b'.session.store.get d).hasArray := by
        rw [← hb'.ledger.endsInArray_eq hbase, Ledger.endsInArray, haddress]
        rfl
      have hne : d ≠ .boxed := hb'.ledger.ne_boxed hbase haddress
      simp [hne, ← harray]
  rw [hrun]
  refine ⟨htruthful, ?_, ?_, ?_⟩
  · rw [hledger]
    exact .refl _
  · intro slot hslot
    rw [hledger]
    rcases Slot.make_cases b'.session.store (some d) m.discipline m.offset with
      ⟨hsuits, hmade⟩ | ⟨_, hrefused⟩
    · cases hmade.symm.trans hslot
      exact ⟨Option.map_eq_some_iff.2 ⟨d, htarget, rfl⟩, fun h => hmisplaced.1 h hsuits⟩
    · cases hrefused.symm.trans hslot
  · intro fault hfault
    rcases Slot.make_cases b'.session.store (some d) m.discipline m.offset with
      ⟨_, hmade⟩ | ⟨hunfit, _⟩
    · cases hmade.symm.trans hfault
    · exact Or.inl (hmisplaced.2 hunfit)

theorem Member.meets_slots (hbase : base.Ready declared) (henter : Finds declared base enter)
    (hb : b.session.Truthful declared base) (members : List (Member (Fin n))) :
    Meets declared base b (fun l slots => members.map l.slot? = slots.map some ∧
        ∀ m ∈ members, ¬ base.Misplaced declared m)
      (∃ m ∈ members, base.Blocked declared m)
      (interpret enter (Member.slots Client.get members) b) := by
  induction members generalizing b with
  | nil => exact .done hb ⟨rfl, fun _ h => nomatch h⟩
  | cons m rest ih =>
    have hslot := (m.meets_slot hbase henter hb).mono (fun _ _ _ h => h)
      fun h => (⟨m, List.mem_cons_self .., h⟩ : ∃ m' ∈ m :: rest, base.Blocked declared m')
    refine hslot.bind ?_
    rintro slot b₁ hb₁ ⟨hm, hplaced⟩
    -- the slot stays right while the others are built
    have hrest := (ih hb₁).mono
      (fun l slots hext h => (⟨(hext.keeps hb₁.sane.sound).slot hm, h⟩ :
        l.slot? m = some slot ∧ _))
      fun ⟨m', hm', h⟩ =>
        (⟨m', List.mem_cons_of_mem _ hm', h⟩ : ∃ m' ∈ m :: rest, base.Blocked declared m')
    refine hrest.bind ?_
    rintro slots b₂ hb₂ ⟨hm, hslots, hall⟩
    refine .done hb₂ ⟨?_, List.forall_mem_cons.2 ⟨hplaced, hall⟩⟩
    rw [List.map_cons, List.map_cons, hm, hslots]

/-- Once the array slot is there, the other slots follow. -/
theorem Declaration.meets_rest (hbase : base.Ready declared) (henter : Finds declared base enter)
    (hb : b.session.Truthful declared base) (declaration : Declaration (Fin n)) {array : Slot}
    (harray : b.session.ledger.array? declaration.array = some array) :
    Meets declared base b
      (fun l parts => l.Fits declaration parts ∧
        ∀ m ∈ declaration.members, ¬ base.Misplaced declared m)
      (∃ m ∈ declaration.members, base.Blocked declared m)
      (interpret enter (Member.slots Client.get declaration.members >>= fun slots =>
        (pure ⟨array, .ofList slots⟩ : Client n (Fin n) Parts)) b) := by
  have hslots := (Member.meets_slots hbase henter hb declaration.members).mono
    (fun l slots hext h => (⟨(hext.keeps hb.sane.sound).array harray, h⟩ :
      l.array? declaration.array = some array ∧ _)) id
  refine hslots.bind ?_
  rintro slots b' hb' ⟨harray, hslots, hplaced⟩
  exact .done hb' ⟨⟨harray, slots, rfl, hslots⟩, hplaced⟩

/-- The build function of a declared type builds what is declared, unless a slot of it cannot
be had. -/
theorem Declaration.meets_build (hbase : base.Ready declared) (henter : Finds declared base enter)
    (hb : b.session.Truthful declared base) (declaration : Declaration (Fin n)) :
    Meets declared base b
      (fun l parts => l.Fits declaration parts ∧
        ∀ m ∈ declaration.handles, ¬ base.Misplaced declared m)
      (∃ m ∈ declaration.handles, base.Blocked declared m)
      (interpret enter (declaration.build Client.get) b) := by
  rcases declaration with ⟨size, hasArray, element, members⟩
  cases element with
  | none => exact meets_rest hbase henter hb ⟨size, hasArray, none, members⟩ rfl
  | some m =>
    let declaration : Declaration (Fin n) := ⟨size, hasArray, some m, members⟩
    have hslot := (m.meets_slot hbase henter hb).mono (fun _ _ _ h => h)
      fun h => (⟨m, List.mem_cons_self .., h⟩ :
        ∃ m' ∈ declaration.handles, base.Blocked declared m')
    refine hslot.bind ?_
    rintro array b' hb' ⟨harray, hplaced⟩
    refine (declaration.meets_rest hbase henter hb' harray).mono ?_ ?_
    · rintro l parts _ ⟨hfits, hall⟩
      exact ⟨hfits, List.forall_mem_cons.2 ⟨hplaced, hall⟩⟩
    · rintro ⟨m', hm', h⟩
      exact ⟨m', List.mem_cons_of_mem _ hm', h⟩

/-! ## Registrations -/

/-- The call that asks for a declared type. -/
def callOf (declared : Fin n → Declaration (Fin n)) (i : Fin n) : Call n (Fin n) :=
  (declared i).call i Client.get

/-- The end of a registration of a declared type: nobody listens, what is said is true, and the
type is published, or an illegal one can be reached from it. -/
structure Ends (declared : Fin n → Declaration (Fin n)) (base : Ledger n) (i : Fin n)
    (outcome : Outcome n (Fin n) depth DescriptorRef) : Prop where
  listener : outcome.2.session.listener = none
  ledger : Ledger.Truthful declared base outcome.2.session.ledger
  result : ∀ d, outcome.1 = .ok d → (outcome.2.session.ledger.cell i).address = some d
  fault : ∀ fault, outcome.1 = .error fault → base.ReachesIllegal declared i

section Registration

variable {i : Fin n} {d : DescriptorRef}

/-- What blocks a member of a type makes it illegal, or leads to an illegal type. -/
theorem reachesIllegal_of_blocked (hbase : base.Ready declared) (hi : base.Fresh i)
    {m : Member (Fin n)} (hm : m ∈ (declared i).handles) (hblocked : base.Blocked declared m) :
    base.ReachesIllegal declared i := by
  rcases hblocked with hmisplaced | ⟨t, htarget, hreason⟩
  · exact ⟨i, .refl, hi, Or.inr (Or.inr ⟨m, hm, hmisplaced⟩)⟩
  · have hrefers : base.RefersTo declared i t := ⟨hi, m, hm, htarget⟩
    exact (hreason (hbase.targets i t hrefers)).of_refersTo hrefers

/-- A registration is given up because of an illegal type. -/
theorem ends_abandon (hb : b.session.Truthful declared base) (hi : base.Fresh i)
    (hcell : b.session.ledger.cell i = ⟨some d, .registering⟩)
    (hillegal : base.ReachesIllegal declared i) (fault : Fault) :
    Ends declared base i (.error fault, abandon i (some d) b) := by
  obtain ⟨_, hsize, hhasArray⟩ := (hb.ledger.types i hi).header d (congrArg (·.address) hcell)
  refine ⟨hb.listener, ?_, nofun, fun _ _ => hillegal⟩
  rw [ledger_abandon]
  exact hb.ledger.settle hb.sane.sound hi hcell (by decide) hsize hhasArray nofun fun _ => hillegal

/-- A registration writes the descriptor that is declared. -/
theorem ends_finish (hb : b.session.Truthful declared base) (hi : base.Fresh i)
    (hcell : b.session.ledger.cell i = ⟨some d, .registering⟩) {memory : Descriptor}
    (hdescribes : b.session.ledger.Describes (declared i) memory)
    (hlegal : ¬ base.Illegal declared i) :
    Ends declared base i (.ok d, ((b.overwrite d memory).finish i).write (.registered i)) := by
  have hsettled : Ledger.Truthful declared base
      ((b.session.ledger.overwrite d memory).setPhase i .registered) :=
    hb.ledger.settle hb.sane.sound hi hcell (by decide) hdescribes.size hdescribes.hasArray
      (fun _ => ⟨hlegal, hdescribes⟩) nofun
  refine ⟨hb.listener, hsettled, ?_, fun _ h => nomatch h⟩
  intro d' hd'
  cases hd'
  have haddress : (b.session.ledger.cell i).address = some d := congrArg (·.address) hcell
  exact (Ledger.address_setPhase (l := b.session.ledger.overwrite d memory) .registered i).trans
    haddress

/-- A registration writes what its build function has built, unless the objects of the type are
too small for it. -/
theorem ends_written (hb : b.session.Truthful declared base) (hi : base.Fresh i)
    (hcell : b.session.ledger.cell i = ⟨some d, .registering⟩)
    (hblank : (b.session.store.get d).slots = []) {layout : Layout}
    (hlayout : Descriptor.layout? (declared i).members.length = some layout) {parts : Parts}
    (hfits : b.session.ledger.Fits (declared i) parts)
    (hplaced : ∀ m ∈ (declared i).handles, ¬ base.Misplaced declared m) :
    let made := (b.session.store.get d).compose 0 ((callOf declared i).request.blueprint parts)
    Ends declared base i (conclude i d (made.1, (b.overwrite d made.2).logOutcome made.1)) := by
  intro made
  obtain ⟨slots, hsource, hslots⟩ := hfits.slots
  have hempty : slots ≠ [] ↔ (declared i).members ≠ [] := by
    have hlength := hfits.reported
    rw [hsource] at hlength
    rw [← List.length_pos_iff, ← List.length_pos_iff, ← hlength]
    rfl
  rcases Descriptor.compose_ofList (b := (callOf declared i).request.blueprint parts)
    hblank hsource with ⟨⟨hsize, hhasArray, hmembers⟩, fault, hmade⟩ | ⟨hwritable, hmade⟩
  · rw [show made = _ from hmade]
    have hillegal : base.Illegal declared i :=
      ⟨hi, Or.inr (Or.inl ⟨hsize, hhasArray, hempty.1 hmembers⟩)⟩
    -- nothing was written
    have hledger : b.session.ledger.overwrite d (b.session.store.get d) = b.session.ledger :=
      b.session.ledger.overwrite_get d
    have hb' : ((b.overwrite d (b.session.store.get d)).logFault fault).session.Truthful
        declared base := hb.of_same hledger rfl
    exact ends_abandon hb' hi ((congrArg (·.cell i) hledger).trans hcell) ⟨i, .refl, hillegal⟩ fault
  · rw [show made = _ from hmade]
    refine ends_finish hb hi hcell ⟨rfl, rfl, hfits.array, hslots⟩ ?_
    rintro ⟨_, hlayout' | hobject | ⟨m, hm, hmisplaced⟩⟩
    · rw [hlayout'] at hlayout
      cases hlayout
    · exact hwritable ⟨hobject.1, hobject.2.1, hempty.2 hobject.2.2⟩
    · exact hplaced m hm hmisplaced

/-- A registration whose address is published builds and writes what is declared. -/
theorem ends_conclude (hbase : base.Ready declared) (henter : Finds declared base enter)
    (hb : b.session.Truthful declared base) (hi : base.Fresh i)
    (hcell : b.session.ledger.cell i = ⟨some d, .registering⟩)
    (hblank : (b.session.store.get d).slots = []) {layout : Layout}
    (hlayout : Descriptor.layout? (declared i).members.length = some layout) :
    Ends declared base i (conclude i d (complete enter (callOf declared i) d b)) := by
  have hbounds : b.session.store.InBounds d :=
    (hb.sane.sound.agrees i).inBounds (congrArg (·.address) hcell)
  have hbuild : Meets declared base b
      (fun l parts => l.Fits (declared i) parts ∧
        ∀ m ∈ (declared i).handles, ¬ base.Misplaced declared m)
      (∃ m ∈ (declared i).handles, base.Blocked declared m)
      (interpret enter (callOf declared i).build b) :=
    (declared i).meets_build hbase henter hb
  unfold complete
  revert hbuild
  rcases interpret enter (callOf declared i).build b with ⟨outcome, b'⟩
  intro hbuild
  have hb' : b'.session.Truthful declared base := hbuild.truthful
  -- the cell was claimed, so that the build function has left it alone
  have hcell' : b'.session.ledger.cell i = ⟨some d, .registering⟩ := by
    rw [← hcell]
    refine (hbuild.ledger.cells i).claimed ?_
    rw [hcell]
    exact Phase.registering_ne_unclaimed
  have hblank' : (b'.session.store.get d).slots = [] := by
    have hget := Store.get_of_prefix hbuild.ledger.store hbounds
    exact (congrArg (·.slots) hget).trans hblank
  cases outcome with
  | error fault =>
    obtain ⟨m, hm, hblocked⟩ := hbuild.fault fault rfl
    exact ends_abandon hb' hi hcell' (reachesIllegal_of_blocked hbase hi hm hblocked) fault
  | ok parts =>
    obtain ⟨hfits, hplaced⟩ := hbuild.result parts rfl
    have hcount : parts.source.reported = (callOf declared i).request.slotCount := hfits.reported
    simp only [hcount, if_true]
    exact ends_written hb' hi hcell' hblank' hlayout hfits hplaced

/-- A registration of a declared type comes to its end. -/
theorem ends_register (hbase : base.Ready declared) (henter : Finds declared base enter)
    {b : Bounded n (Fin n) (depth + 1)} (hb : b.session.Truthful declared base)
    (hfree : b.session.entry i = .free) :
    Ends declared base i (register enter (callOf declared i) (b.claim i hfree)) := by
  have hphase : (b.session.ledger.cell i).phase = .unclaimed := Cell.phase_of_entry_free hfree
  have hi : base.Fresh i := hb.ledger.fresh_of_free hphase
  obtain ⟨hclaimed, _, hcell⟩ := claim_spec hb.sane hfree
  let announced := (b.claim i hfree).write (Point.announcement (callOf declared i))
  have hannounce : announce enter i (callOf declared i).request (b.claim i hfree) = announced := by
    unfold announce
    simp only
    split
    · rfl
    · rename_i listener hlistener
      have hnone : b.session.listener = none := hb.listener
      have hsome : b.session.listener = some listener := hlistener
      rw [hnone] at hsome
      cases hsome
  cases hlayout : Descriptor.layout? (declared i).members.length with
  | none =>
    have hillegal : base.ReachesIllegal declared i := ⟨i, .refl, hi, Or.inl hlayout⟩
    have hcount : Descriptor.layout? (callOf declared i).request.slotCount = none := hlayout
    unfold register
    simp only [hcount]
    rw [show (callOf declared i).cell = i from rfl, hannounce]
    refine ⟨hb.listener, hb.ledger.refuse hb.sane.sound hphase hillegal, ?_, fun _ _ => hillegal⟩
    intro d hd
    cases hd
  | some layout =>
    have hcount : Descriptor.layout? (callOf declared i).request.slotCount = some layout := hlayout
    rw [register_of_layout _ _ hcount]
    simp only
    rw [show (callOf declared i).cell = i from rfl, hannounce]
    have hannounced : (b.claim i hfree).session.Evolves (fun _ => ∅) announced.session :=
      .of_same hclaimed rfl rfl
    obtain ⟨hsane, _, hreserved, _, hblank⟩ :=
      reserve_spec (callOf declared i).request hannounced.sane (congrArg (·.phase) hcell)
        (congrArg (·.address) hcell)
    have htruthful : Session.Truthful declared base
        (reserve i (callOf declared i).request announced).2.session :=
      ⟨hsane, hb.listener, hb.ledger.reserve hb.sane.sound hphase rfl rfl⟩
    exact ends_conclude hbase henter htruthful hi hreserved hblank hlayout

end Registration

/-! ## Lookups -/

theorem honest_callOf (declared : Fin n → Declaration (Fin n)) :
    HonestCalls (fun _ => ∅) (callOf declared) := by
  have hfind : HonestFind (fun _ => ∅) (Client.get : Fin n → Client n (Fin n) DescriptorRef) :=
    fun _ known _ => Client.honest_get (Set.empty_subset known)
  exact fun i => Declaration.honest_build hfind (Set.mem_insert _ _) (declared i)

/-- A lookup of a type that is not free changes nothing.  The type is found where its address
is published, or its registration has failed. -/
theorem meets_of_ne_free (hbase : base.Ready declared) {t : Fin n}
    (hb : b.session.Truthful declared base) (hentry : b.session.entry t ≠ .free) :
    Meets declared base b (fun l d => (l.cell t).address = some d)
      ((base.cell t).phase ≠ .poisoned → base.ReachesIllegal declared t)
      (resolve (callOf declared) depth (callOf declared t) b) := by
  have hcell : (callOf declared t).cell = t := rfl
  cases hfound : b.session.entry t with
  | found d =>
    rw [resolve_of_found (hcell ▸ hfound)]
    exact .done hb (Cell.address_of_entry_found hfound)
  | refused fault =>
    rw [resolve_of_refused (hcell ▸ hfound)]
    refine ⟨hb.of_same rfl rfl, .refl _, nofun, ?_⟩
    intro _ _ hwell
    have hphase : (b.session.ledger.cell t).phase = .poisoned :=
      hb.ledger.poisoned_of_refused hbase hb.sane.sound hfound
    exact hb.ledger.reachesIllegal hphase hwell
  | free => exact absurd hfound hentry

/-- Lookups of declared types do what their build functions expect of lookups. -/
theorem finds_resolve (hbase : base.Ready declared) (depth : Nat) :
    Finds declared base fun t : Fin n => resolve (callOf declared) depth (callOf declared t) := by
  have hserves : ∀ depth, Serves (fun _ => ∅) fun t : Fin n =>
      resolve (callOf declared) depth (callOf declared t) := fun depth =>
    (honest_callOf declared).serves (resolve_evolves (honest_callOf declared) depth)
  induction depth with
  | zero => exact fun t b hb => meets_of_ne_free hbase hb (b.entry_ne_free t)
  | succ depth ih =>
    intro t b hb
    by_cases hentry : b.session.entry t = .free
    · -- the lookups of the build function nest one level less deep
      have hends := ends_register hbase ih hb hentry
      have hevolves := (hserves (depth + 1) t b hb.sane nofun).1
      have hresolve : resolve (callOf declared) (depth + 1) (callOf declared t) b = _ :=
        resolve_of_free hentry
      simp only at hevolves ⊢
      rw [hresolve] at hevolves ⊢
      exact ⟨⟨hevolves.sane, hends.listener, hends.ledger⟩, hevolves.ledger, hends.result,
        fun fault hfault _ => hends.fault fault hfault⟩
    · exact meets_of_ne_free hbase hb hentry

end Runs

/-! ## Requests -/

namespace Session

/-- The session in which other code goes on, while nobody listens to the log. -/
def handOver {κ' : Type} (s : Session n κ) : Session n κ' :=
  ⟨s.store, s.cells, none, s.events, s.log⟩

/-- Types are asked for one after the other, whatever comes of each. -/
def requestAll (calls : κ → Call n κ) (requests : List κ) (s : Session n κ) : Session n κ :=
  requests.foldl (fun s key => (s.resolve calls (calls key)).2) s

variable {declared : Fin n → Declaration (Fin n)} {base : Ledger n}

theorem Truthful.requestAll (hbase : base.Ready declared) {s : Session n (Fin n)}
    (hs : s.Truthful declared base) (hquiet : s.ledger.Quiet) (requests : List (Fin n)) :
    (s.requestAll (callOf declared) requests).Truthful declared base ∧
      (s.requestAll (callOf declared) requests).ledger.Quiet := by
  induction requests generalizing s with
  | nil => exact ⟨hs, hquiet⟩
  | cons t rest ih =>
    have hresolve := finds_resolve hbase s.unclaimed t s.bounded hs
    exact ih hresolve.truthful (hresolve.ledger.quiet hquiet)

/-- Types can be declared between outermost calls. -/
theorem Reached.ready {knows : κ → Set DescriptorRef} {calls : κ → Call n κ}
    (hcalls : HonestCalls knows calls) {s : Session n κ} (hreached : s.Reached knows calls)
    (htargets : ∀ i t, s.ledger.RefersTo declared i t → (s.cells.get t).phase ≠ .poisoned) :
    s.ledger.Ready declared := by
  obtain ⟨hsane, hquiet⟩ := hreached.sane_quiet hcalls
  exact ⟨hsane.sound, hquiet, hreached.apart.types, htargets⟩

/-- Declared types are registered as they are declared.  Take any session between outermost
calls, and declare all types that nobody has asked for yet, in any way: with cycles, and with
members that refer to each other, to the sentinel or to types that are registered.  Then ask
for types in any order, as often as you like, and survive what fails.  An illegal type is
never registered.  A request for a type from which no illegal type can be reached, by array
slots and by other slots, succeeds.  And whatever is registered has a complete descriptor that
says exactly what is declared, where each slot refers to the published address of its
target. -/
theorem declared_types_are_registered_as_declared {knows : κ → Set DescriptorRef}
    {calls : κ → Call n κ} (hcalls : HonestCalls knows calls) {earlier : Session n κ}
    (hreached : earlier.Reached knows calls) (declared : Fin n → Declaration (Fin n))
    (htargets : ∀ i t, earlier.ledger.RefersTo declared i t →
      (earlier.cells.get t).phase ≠ .poisoned) (requests : List (Fin n)) :
    let s := earlier.handOver.requestAll (callOf declared) requests
    (∀ i, earlier.ledger.Illegal declared i → (s.cells.get i).phase ≠ .registered) ∧
    (∀ i, (earlier.cells.get i).phase ≠ .poisoned → ¬ earlier.ledger.ReachesIllegal declared i →
      ∃ d, (s.resolve (callOf declared) (callOf declared i)).1 = .ok d ∧
        (s.resolve (callOf declared) (callOf declared i)).2.cells.get i = ⟨some d, .registered⟩) ∧
    (∀ i, (earlier.cells.get i).phase = .unclaimed → (s.cells.get i).phase = .registered →
      ∃ d, (s.cells.get i).address = some d ∧ (s.store.get d).Complete ∧
        s.ledger.Describes (declared i) (s.store.get d)) := by
  intro s
  have hbase : earlier.ledger.Ready declared := hreached.ready hcalls htargets
  have hearlier : (earlier.handOver : Session n (Fin n)).Truthful declared earlier.ledger :=
    ⟨⟨hbase.sound, nofun⟩, rfl, hbase.truthful⟩
  obtain ⟨hs, hquiet⟩ := hearlier.requestAll hbase hbase.quiet requests
  -- the address and the descriptor of a type that is registered
  have hregistered : ∀ i, (s.cells.get i).phase = .registered →
      ∃ d, s.cells.get i = ⟨some d, .registered⟩ ∧ (s.store.get d).Complete := by
    intro i hphase
    obtain ⟨d, haddress, hbounds, hinit⟩ := (hs.sane.sound.agrees i).of_registered hphase
    refine ⟨d, ?_, (hs.sane.sound.finished d hbounds hinit).1⟩
    rw [← hphase, ← haddress]
    rfl
  refine ⟨?_, ?_, ?_⟩
  · intro i hillegal hphase
    obtain ⟨d, hcell, _⟩ := hregistered i hphase
    exact ((hs.ledger.types i hillegal.1).registered d hcell).1 hillegal
  · intro i hwell hlegal
    have hresolve := finds_resolve hbase s.unclaimed i s.bounded hs
    obtain ⟨hs', hkept, hresult, hfault⟩ := hresolve
    have hquiet' := hkept.quiet hquiet
    cases houtcome : (s.resolve (callOf declared) (callOf declared i)).1 with
    | error fault => exact absurd (hfault fault houtcome hwell) hlegal
    | ok d =>
      refine ⟨d, rfl, ?_⟩
      exact hs'.sane.sound.eq_registered (hresult d houtcome) (hquiet' i) fun hphase =>
        hlegal (hs'.ledger.reachesIllegal hphase hwell)
  · intro i hfresh hphase
    obtain ⟨d, hcell, hcomplete⟩ := hregistered i hphase
    exact ⟨d, congrArg (·.address) hcell, hcomplete,
      ((hs.ledger.types i hfresh).registered d hcell).2⟩

/-- Two types that refer to each other, of which `1` has objects that end in an array, and two
illegal ones: `2` has a member of type `1` by value, and `3` has a member but no size. -/
def mixed : Fin 4 → Declaration (Fin 4)
  | 0 => ⟨8, false, none, [⟨.type 1, .strong, 0⟩]⟩
  | 1 => ⟨8, true, some ⟨.type 0, .strong, 8⟩, []⟩
  | 2 => ⟨24, false, none, [⟨.type 0, .value, 0⟩, ⟨.type 1, .value, 8⟩]⟩
  | 3 => ⟨0, false, none, [⟨.type 2, .strong, 0⟩]⟩

/-- Although the illegal types are asked for first and again, the others are registered as they
are declared. -/
theorem mixed_types_are_registered :
    let s := (Session.initial : Session 4 (Fin 4)).handOver.requestAll (callOf mixed) [3, 1, 2]
    (s.cells.get 2).phase ≠ .registered ∧ (s.cells.get 3).phase ≠ .registered ∧
    (∃ d, (s.resolve (callOf mixed) (callOf mixed 0)).1 = .ok d) ∧
    ∃ d, (s.cells.get 1).address = some d ∧ (s.store.get d).Complete ∧
      s.ledger.Describes (mixed 1) (s.store.get d) := by
  intro s
  have hwell : ∀ i, ((Session.initial : Session 4 (Fin 4)).cells.get i).phase ≠ .poisoned := by
    decide +kernel
  have hlegal : ¬ (Session.initial : Session 4 (Fin 4)).ledger.ReachesIllegal mixed 0 := by
    -- the first two are not illegal, and refer to each other only
    have hclosed : ∀ i t, (Session.initial : Session 4 (Fin 4)).ledger.RefersTo mixed i t →
        i < 2 → t < 2 := by decide +kernel
    have hothers : ∀ i, (Session.initial : Session 4 (Fin 4)).ledger.Illegal mixed i → ¬ i < 2 := by
      decide +kernel
    rintro ⟨j, hreaches, hj⟩
    apply hothers j hj
    clear hj
    induction hreaches with
    | refl => decide
    | tail _ hrefers ih => exact hclosed _ _ hrefers ih
  obtain ⟨hillegal, hsucceeds, hregistered⟩ :=
    declared_types_are_registered_as_declared (honest_callOf mixed) .initial mixed
      (fun _ t _ => hwell t) [3, 1, 2]
  obtain ⟨d, hd, _⟩ := hsucceeds 0 (hwell 0) hlegal
  exact ⟨hillegal 2 (by decide +kernel), hillegal 3 (by decide +kernel), ⟨d, hd⟩,
    hregistered 1 (by decide +kernel) (by decide +kernel)⟩

end Session

end TracedHeap
