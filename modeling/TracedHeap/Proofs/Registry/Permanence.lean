import TracedHeap.Proofs.Registry.Writes

/-! # Descriptors are for good

A descriptor is known by its address.  All that ask for one type are given the same address,
no other descriptor ever has it, and what it says of the size and the array of its objects is
the same from then on.

1. **Runs** compared: a point that is led to lies before or after any other.
2. **Calls** that come back with a descriptor (`Point.Fetches`): that is the published one.
3. **Constructions** at run-time (`Point.constructed`): they have memory of their own.

The main statement is `descriptors_are_for_good`.
-/

namespace TracedHeap

variable {n depth : Nat} {κ β : Type} {calls : κ → Call n κ}

namespace Point

/-! ## Runs -/

theorem Leads.run {p q : Point n κ} (h : Leads calls p q) : ∃ built, Run calls p built q := by
  obtain ⟨built, hrun⟩ := (Run.refl : Run calls p [] p).leads h
  exact ⟨_, hrun⟩

theorem Run.trans {p q r : Point n κ} {built later : List (Fin n)} (h : Run calls p built q)
    (h' : Run calls q later r) : Run calls p (later ++ built) r := by
  induction h' with
  | refl => exact h
  | tail _ hmove ih =>
    rw [List.append_assoc]
    exact ih.tail hmove

/-- A run stays where it is, or begins with a move. -/
theorem Run.cases_head {p q : Point n κ} {built : List (Fin n)} (h : Run calls p built q) :
    p = q ∨ ∃ mid later, Move calls p mid ∧ Run calls mid later q := by
  induction h with
  | refl => exact Or.inl rfl
  | tail _ hmove ih =>
    right
    rcases ih with rfl | ⟨mid, later, hfirst, hrest⟩
    · exact ⟨_, _, hmove, .refl⟩
    · exact ⟨mid, _, hfirst, hrest.tail hmove⟩

/-- What a point leads to comes after a later point of a run, or the run has passed it. -/
theorem Run.leads_or_run {p q r : Point n κ} {built : List (Fin n)} (h : Run calls p built q)
    (hr : Leads calls p r) : Leads calls q r ∨ ∃ later, Run calls r later q := by
  induction h with
  | refl => exact Or.inl hr
  | @tail _ q q' _ hmove ih =>
    rcases ih with hleads | ⟨later, hrun⟩
    · rcases Relation.ReflTransGen.cases_head hleads with rfl | ⟨mid, hmid, hrest⟩
      · exact Or.inr ⟨_, Run.refl.tail hmove⟩
      · -- there is only one step that the run can have made
        left
        cases hmove with
        | step hnext =>
          rw [hnext] at hmid
          cases hmid
          exact hrest
        | run _ hend | request _ hend | listen _ hend =>
          rw [hend] at hmid
          cases hmid
    · exact Or.inr ⟨_, hrun.tail hmove⟩

/-- Of two points that a run leads to, one comes after the other. -/
theorem Run.leads_compare {p q r r' : Point n κ} {built : List (Fin n)}
    (h : Run calls p built q) (hr : Leads calls p r) (hr' : Leads calls q r') :
    (∃ later, Run calls r later r') ∨ ∃ later, Run calls r' later r := by
  rcases h.leads_or_run hr with hleads | ⟨later, hrun⟩
  · obtain ⟨later, hrun⟩ := hleads.run
    rcases hrun.leads_or_run hr' with hleads' | hrun'
    · exact Or.inl hleads'.run
    · exact Or.inr hrun'
  · exact Or.inl ⟨_, (hrun.leads hr').choose_spec⟩

/-! ## Calls -/

theorem eq_of_conclude {cell : Fin n} {d d' : DescriptorRef}
    {outcome : Outcome n κ depth Unit} (h : (conclude cell d outcome).1 = .ok d') :
    d = d' := by
  rcases outcome with ⟨fault | _, after⟩
  · cases h
  · exact Except.ok.inj h

/-- A registration that comes back with a descriptor has published it. -/
theorem address_of_register {enter : κ → Bounded n κ depth → Outcome n κ depth DescriptorRef}
    (henter : Answers calls enter) {call : Call n κ}
    {resume : Except Fault DescriptorRef → Client n κ β} {callers : Callers n κ β}
    {b : Bounded n κ depth} {d : DescriptorRef}
    (hp : (announced call resume callers b.session).ledger.Tracks
      (announced call resume callers b.session).registrations)
    (h : (register enter call b).1 = .ok d) :
    ((register enter call b).2.session.ledger.cell call.cell).address = some d := by
  have hannounced : Leads calls (announced call resume callers b.session)
      (proceed call resume callers (announce enter call.cell call.request b).session) :=
    leads_announced henter b
  cases hlayout : Descriptor.layout? call.request.slotCount with
  | none =>
    unfold register at h
    simp only [hlayout] at h
    cases h
  | some layout =>
    rw [register_of_layout call b hlayout] at h ⊢
    let before := announce enter call.cell call.request b
    let reserved := reserve call.cell call.request before
    let published : Point n κ :=
      .running call.build (.building call reserved.1 resume callers) reserved.2.session
    have hproceed : proceed call resume callers before.session = published := by
      unfold proceed
      rw [hlayout]
      rfl
    rw [hproceed] at hannounced
    obtain ⟨_, hrun⟩ := hannounced.run
    have haddress : (published.ledger.cell call.cell).address = some reserved.1 := by
      show (reserved.2.session.ledger.cell call.cell).address = _
      rw [ledger_reserve, Ledger.cell_publish_self]
    -- from here on the address stays published
    let ended := conclude call.cell reserved.1 (complete enter call reserved.1 reserved.2)
    have hbuilt : Leads calls published (.running (resume ended.1) callers ended.2.session) :=
      leads_building henter reserved.1 reserved.2
    obtain ⟨_, hrest⟩ := hbuilt.run
    have hkept := (hrest.persists (hrun.tracks hp)).keeps _ _ haddress
    have hended : ended.1 = .ok d := h
    rw [← eq_of_conclude hended]
    exact hkept

/-- A lookup that comes back with a descriptor comes back with the published one. -/
theorem address_of_resolve {call : Call n κ} {resume : Except Fault DescriptorRef → Client n κ β}
    {callers : Callers n κ β} {b : Bounded n κ depth} {d : DescriptorRef}
    (hp : (arrive call resume callers b.session).ledger.Tracks
      (arrive call resume callers b.session).registrations)
    (h : (resolve calls depth call b).1 = .ok d) :
    ((resolve calls depth call b).2.session.ledger.cell call.cell).address = some d := by
  cases hentry : b.session.entry call.cell with
  | found d' =>
    rw [resolve_of_found hentry] at h ⊢
    cases h
    exact Cell.address_of_entry_found hentry
  | refused fault =>
    rw [resolve_of_refused hentry] at h
    cases h
  | free =>
    cases depth with
    | zero => exact absurd hentry (b.entry_ne_free call.cell)
    | succ depth =>
      rw [resolve_of_free hentry] at h ⊢
      rw [arrive_of_free hentry] at hp
      have henter : Answers calls fun key => resolve calls depth (calls key) :=
        fun key => leads_resolve calls depth (calls key)
      exact address_of_register henter (b := b.claim call.cell hentry) hp h

/-- A call is made at a point, and comes back with a descriptor. -/
def Fetches (calls : κ → Call n κ) (p : Point n κ) (call : Call n κ) (d : DescriptorRef) : Prop :=
  ∃ (β : Type) (resume : Except Fault DescriptorRef → Client n κ β) (callers : Callers n κ β)
    (s : Session n κ), p = arrive call resume callers s ∧ (s.resolve calls call).1 = .ok d

/-- When a call comes back with a descriptor, that is published. -/
theorem Fetches.published {p : Point n κ} {call : Call n κ} {d : DescriptorRef}
    (h : p.Fetches calls call d) (hp : p.ledger.Tracks p.registrations) :
    ∃ q, Leads calls p q ∧ (q.ledger.cell call.cell).address = some d := by
  obtain ⟨β, resume, callers, s, rfl, hresult⟩ := h
  exact ⟨_, leads_resolve calls s.unclaimed call resume callers s.bounded,
    address_of_resolve (b := s.bounded) hp hresult⟩

/-! ## Constructions -/

/-- The descriptor that is constructed at run-time by the step that follows on a point. -/
def constructed : Point n κ → Option DescriptorRef
  | .running (.construct placement blueprint _) _ s =>
    match (s.construct placement blueprint).1 with
    | .ok made => made
    | .error _ => none
  | _ => none

theorem session_construct_eq {s : Session n κ} {placement : Placement} {blueprint : Blueprint}
    {d : DescriptorRef} (h : (s.construct placement blueprint).1 = .ok (some d)) :
    d = s.store.fresh ∧
      ∃ memory, (s.construct placement blueprint).2.ledger = s.ledger.allocate memory := by
  have hledger : (s.construct placement blueprint).2.ledger =
      { s.ledger with store := (s.store.construct placement blueprint).store } := by
    simp only [Session.construct, Session.ledger_logOutcome]
    rfl
  have hresult : (s.store.construct placement blueprint).result = .ok (some d) := h
  rw [hledger]
  rcases s.store.construct_cases placement blueprint with
    ⟨_, hnone⟩ | ⟨memory, hstore, ⟨hok, _⟩ | ⟨⟨fault, hfault⟩, _⟩⟩
  · rw [hnone] at hresult
    cases hresult
  · rw [hok] at hresult
    cases hresult
    rw [hstore]
    exact ⟨rfl, memory, rfl⟩
  · rw [hfault] at hresult
    cases hresult

theorem exists_of_constructed {p : Point n κ} {d : DescriptorRef} (hd : p.constructed = some d) :
    ∃ (β : Type) (placement : Placement) (blueprint : Blueprint)
      (next : Except Fault (Option DescriptorRef) → Client n κ β) (callers : Callers n κ β)
      (s : Session n κ), p = .running (.construct placement blueprint next) callers s ∧
        (s.construct placement blueprint).1 = .ok (some d) := by
  cases p with
  | failing fault callers s => cases hd
  | running client callers s =>
    cases client with
    | construct placement blueprint next =>
      simp only [constructed] at hd
      split at hd
      · rename_i made hmade
        rw [hd] at hmade
        exact ⟨_, placement, blueprint, next, callers, s, rfl, hmade⟩
      · cases hd
    | _ => cases hd

/-- A construction that has a result has allocated fresh memory, and done nothing else. -/
theorem ledger_of_constructed {p q : Point n κ} {d : DescriptorRef}
    (hd : p.constructed = some d) (hmove : Move calls p q) :
    ∃ memory, q.ledger = p.ledger.allocate memory := by
  obtain ⟨β, placement, blueprint, next, callers, s, rfl, hmade⟩ := exists_of_constructed hd
  cases hmove with
  | step hnext =>
    cases hnext
    exact (session_construct_eq hmade).2
  | run _ hend | request _ hend | listen _ hend => cases hend

theorem eq_fresh_of_constructed {p : Point n κ} {d : DescriptorRef}
    (hd : p.constructed = some d) : d = p.session.store.fresh := by
  obtain ⟨β, placement, blueprint, next, callers, s, rfl, hmade⟩ := exists_of_constructed hd
  exact (session_construct_eq hmade).1

/-- A descriptor that is constructed has an address that no other has at the time. -/
theorem ne_of_constructed {p : Point n κ} {d e : DescriptorRef} (hd : p.constructed = some d)
    (he : p.session.store.InBounds e) : d ≠ e := by
  rintro rfl
  rw [eq_fresh_of_constructed hd] at he
  exact Store.not_inBounds_fresh he

theorem inBounds_of_constructed {p q : Point n κ} {d : DescriptorRef}
    (hd : p.constructed = some d) (hmove : Move calls p q) : q.session.store.InBounds d := by
  obtain ⟨memory, hledger⟩ := ledger_of_constructed hd hmove
  show q.ledger.store.InBounds d
  rw [hledger, eq_fresh_of_constructed hd]
  exact Store.inBounds_allocate_fresh

/-- No type ever has the address of a descriptor that was constructed. -/
theorem Run.address_ne_of_constructed {p q : Point n κ} {built : List (Fin n)} {d : DescriptorRef}
    (h : Run calls p built q) (hp : p.ledger.Tracks p.registrations)
    (hd : p.constructed = some d) (cell : Fin n) : (q.ledger.cell cell).address ≠ some d := by
  have hnow : ∀ cell, (p.ledger.cell cell).address ≠ some d := fun cell haddress =>
    ne_of_constructed hd (hp.inBounds haddress) rfl
  rcases h.cases_head with rfl | ⟨mid, later, hmove, hrest⟩
  · exact hnow cell
  · -- once it is allocated, the address is not handed out to a type
    have hmid : ∀ cell, (mid.ledger.cell cell).address ≠ some d := by
      obtain ⟨memory, hledger⟩ := ledger_of_constructed hd hmove
      rw [hledger]
      exact hnow
    exact (hrest.persists (hmove.change.tracks hp)).apart d
      (inBounds_of_constructed hd hmove) hmid cell

/-- So no call comes back with it, before or after. -/
theorem Run.not_fetches_of_constructed {p q : Point n κ} {built : List (Fin n)}
    {d : DescriptorRef} (h : Run calls p built q) (hp : p.ledger.Tracks p.registrations)
    (hd : p.constructed = some d) (call : Call n κ) : ¬ q.Fetches calls call d := by
  intro hfetches
  obtain ⟨r, hleads, haddress⟩ := hfetches.published (h.tracks hp)
  obtain ⟨_, hrun⟩ := h.leads hleads
  exact hrun.address_ne_of_constructed hp hd call.cell haddress

theorem Run.constructed_ne_of_fetches {p q : Point n κ} {built : List (Fin n)}
    {d : DescriptorRef} {call : Call n κ} (h : Run calls p built q)
    (hp : p.ledger.Tracks p.registrations) (hfetches : p.Fetches calls call d) :
    q.constructed ≠ some d := by
  intro hd
  obtain ⟨r, hleads, haddress⟩ := hfetches.published hp
  rcases h.leads_or_run hleads with hleads' | ⟨_, hrun⟩
  · obtain ⟨_, hrun⟩ := hleads'.run
    exact hrun.address_ne_of_constructed (h.tracks hp) hd call.cell haddress
  · obtain ⟨_, hreached⟩ := hleads.run
    have hr := hreached.tracks hp
    exact ne_of_constructed hd ((hrun.persists hr).inBounds d (hr.inBounds haddress)) rfl

theorem Run.constructed_ne_of_constructed {p mid q : Point n κ} {later : List (Fin n)}
    {d : DescriptorRef} (hp : p.ledger.Tracks p.registrations) (hd : p.constructed = some d)
    (hmove : Move calls p mid) (hrest : Run calls mid later q) : q.constructed ≠ some d := by
  intro hd'
  have hbounds := (hrest.persists (hmove.change.tracks hp)).inBounds d
    (inBounds_of_constructed hd hmove)
  exact ne_of_constructed hd' hbounds rfl

/-- Calls on one cell come back with the same descriptor, and calls on different cells with
different ones. -/
theorem Run.fetches_eq_iff {p q : Point n κ} {built : List (Fin n)} {call call' : Call n κ}
    {d d' : DescriptorRef} (h : Run calls p built q) (hp : p.ledger.Tracks p.registrations)
    (hfetches : p.Fetches calls call d) (hfetches' : q.Fetches calls call' d') :
    d = d' ↔ call.cell = call'.cell := by
  obtain ⟨r, hleads, haddress⟩ := hfetches.published hp
  obtain ⟨r', hleads', haddress'⟩ := hfetches'.published (h.tracks hp)
  obtain ⟨_, hr⟩ := hleads.run
  obtain ⟨_, hr'⟩ := h.leads hleads'
  -- at the later of the two returns both addresses are published
  have hboth : ∃ last : Point n κ, last.ledger.Tracks last.registrations ∧
      (last.ledger.cell call.cell).address = some d ∧
      (last.ledger.cell call'.cell).address = some d' := by
    rcases h.leads_compare hleads hleads' with ⟨_, hrun⟩ | ⟨_, hrun⟩
    · exact ⟨r', hr'.tracks hp, (hrun.persists (hr.tracks hp)).keeps _ _ haddress, haddress'⟩
    · exact ⟨r, hr.tracks hp, haddress, (hrun.persists (hr'.tracks hp)).keeps _ _ haddress'⟩
  obtain ⟨last, hlast, hcell, hcell'⟩ := hboth
  constructor
  · rintro rfl
    exact hlast.distinct _ _ d hcell hcell'
  · intro hsame
    rw [hsame, hcell'] at hcell
    exact (Option.some.inj hcell).symm

/-! ## The law of descriptors -/

/-- What stays of descriptors from one point to a later one, and which of them are the
same. -/
structure Lasts (calls : κ → Call n κ) (p q : Point n κ) : Prop where
  /-- Calls on one cell come back with the same descriptor, whatever else they declare, and
  calls on different cells with different ones. -/
  fetched : ∀ call call' d d', p.Fetches calls call d → q.Fetches calls call' d' →
    (d = d' ↔ call.cell = call'.cell)
  fetched_ne : ∀ call d, p.Fetches calls call d → d ≠ .boxed ∧ q.constructed ≠ some d
  /-- A descriptor that is constructed at run-time is no other. -/
  constructed_ne : ∀ d, p.constructed = some d → d ≠ .boxed ∧
    (∀ cell, (q.session.cells.get cell).address ≠ some d) ∧
    (∀ call, ¬ q.Fetches calls call d) ∧
    ∀ mid later, Move calls p mid → Run calls mid later q →
      q.session.store.InBounds d ∧ q.constructed ≠ some d
  /-- An address that is published is that of one type for good. -/
  published : ∀ cell d, (p.session.cells.get cell).address = some d →
    d ≠ .boxed ∧ p.session.store.InBounds d ∧
      ∀ other, (q.session.cells.get other).address = some d ↔ other = cell
  /-- Header, and all of what is finished or given up, stay as they are. -/
  follows : ∀ d, p.session.store.InBounds d → q.session.store.InBounds d ∧
    (p.session.store.get d).Follows (q.session.store.get d)
  /-- What is finished is not given up. -/
  decided : ∀ d, (q.session.store.get d).initialized = true →
    (q.session.store.get d).poisoned = false
  sentinel : q.session.store.get .boxed = .sentinel

/-- Descriptors are for good.  Take any run from the start: any number of outermost requests
and other code over any graph of types, with faults at any depth, survived anywhere, and with
constructions at run-time; and take any two points of it. -/
theorem descriptors_are_for_good {built later : List (Fin n)} {p q : Point n κ}
    (hp : Run calls start built p) (hq : Run calls p later q) : Lasts calls p q := by
  have htracks := hp.tracks tracks_start
  have hpersists := hq.persists htracks
  have hapart := hp.apart apart_start
  constructor
  case fetched => exact fun call call' d d' h h' => hq.fetches_eq_iff htracks h h'
  case fetched_ne =>
    intro call d h
    obtain ⟨r, hleads, haddress⟩ := h.published htracks
    obtain ⟨_, hr⟩ := hleads.run
    exact ⟨(hr.apart hapart).types call.cell d haddress, hq.constructed_ne_of_fetches htracks h⟩
  case constructed_ne =>
    intro d hd
    refine ⟨ne_of_constructed hd hapart.sentinel, ?_, ?_, ?_⟩
    · exact fun cell => hq.address_ne_of_constructed htracks hd cell
    · exact fun call => hq.not_fetches_of_constructed htracks hd call
    · intro mid later hmove hrest
      exact ⟨(hrest.persists (hmove.change.tracks htracks)).inBounds d
        (inBounds_of_constructed hd hmove), hrest.constructed_ne_of_constructed htracks hd hmove⟩
  case published =>
    intro cell d hd
    refine ⟨hapart.types cell d hd, htracks.inBounds hd, fun other => ⟨fun hother => ?_, ?_⟩⟩
    · exact (hq.tracks htracks).distinct other cell d hother (hpersists.keeps cell d hd)
    · rintro rfl
      exact hpersists.keeps other d hd
  case follows => exact fun d hd => ⟨hpersists.inBounds d hd, hpersists.follows d hd⟩
  case decided => exact hq.decided (hp.decided decided_start)
  case sentinel =>
    have hstart := ((hp.trans hq).persists tracks_start).follows .boxed apart_start.sentinel
    exact hstart.initialized rfl

/-- Two ways to ask for one type, from outside and from inside.  The build function of the
first asks for the type in the second way, which declares something else, and constructs a
descriptor at run-time. -/
def selfish (type : Fin 1) (inside : Bool) : Call 1 Bool :=
  if inside then ⟨type, ⟨16, true, 0⟩, .fail (.raised "never built")⟩
  else ⟨type, ⟨8, false, 1⟩, .lookup true constructing⟩
where
  constructing (found : Except Fault DescriptorRef) : Client 1 Bool Parts :=
    .construct (.memory 0) ⟨8, false, .empty, .ofList []⟩ fun _ =>
      .done ⟨.empty, .ofList [⟨found.toOption, .strong, 0⟩]⟩

/-- The call inside of a registration, with other arguments, comes back with the descriptor
that the registration comes back with, and the descriptor that is constructed next is
another. -/
theorem inner_call_finds_outer_descriptor :
    ∃ (p q : Point 1 Bool) (built later : List (Fin 1)), Run (selfish 0) start built p ∧
      Run (selfish 0) p later q ∧ p.Fetches (selfish 0) (selfish 0 false) ⟨1⟩ ∧
      q.constructed = some ⟨2⟩ ∧
      (∀ d, q.Fetches (selfish 0) (selfish 0 true) d ↔ d = ⟨1⟩) ∧
      ∀ call, ¬ q.Fetches (selfish 0) call ⟨2⟩ := by
  let asked : Point 1 Bool := request (selfish 0 false) .initial
  have hp : Run (selfish 0) start _ asked := Run.refl.tail (.request (selfish 0 false) rfl)
  have hrest : Run (selfish 0) asked [] asked := .refl
  have hq := (hrest.tail (.step rfl)).tail (.step rfl)
  have hfetches : asked.Fetches (selfish 0) (selfish 0 false) ⟨1⟩ :=
    ⟨_, .ofExcept, .outermost, .initial, rfl, by decide +kernel⟩
  refine ⟨_, _, _, _, hp, hq, hfetches, by rfl, fun d => ⟨fun h => ?_, ?_⟩, fun call => ?_⟩
  · exact (((descriptors_are_for_good hp hq).fetched _ _ _ _ hfetches h).2 rfl).symm
  · rintro rfl
    exact ⟨_, selfish.constructing, _, _, rfl, by decide +kernel⟩
  · exact ((descriptors_are_for_good (hp.trans hq) .refl).constructed_ne ⟨2⟩ rfl).2.2.1 call

end Point

end TracedHeap
