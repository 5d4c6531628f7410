import Mathlib.Data.Fintype.Card
import TracedHeap.Proofs.Registry.Phases

/-! # Requests come to an end

The types refer to each other as they like, so nothing in the build functions bounds how
deep lookups go.  What does is that each registration claims a cell of its own, and that a
claimed cell is never free again, whatever becomes of the registration.

1. **Build functions**: those that were called so far are of cells that are claimed, and
   whose registrations, while they run, are past the call (`Built`).
2. **Ends**: each point of a run leads to the end of the outermost code.

The main statement is `requests_end_and_build_once`.
-/

namespace TracedHeap

variable {n : Nat} {κ : Type} {calls : κ → Call n κ}

/-! ## Build functions -/

/-- No build function was called twice, and none of those that were can be called again. -/
structure Built (built : List (Fin n)) (l : Ledger n) (rs : List (Registration n κ)) : Prop where
  nodup : built.Nodup
  claimed : ∀ cell ∈ built, (l.cell cell).phase ≠ .unclaimed
  published : ∀ r ∈ rs, r.call.cell ∈ built → r.address ≠ none

/-- A claimed cell is never free again. -/
theorem Phase.Advances.ne_unclaimed {phase phase' : Phase} (h : phase.Advances phase')
    (hphase : phase ≠ .unclaimed) : phase' ≠ .unclaimed := by
  cases h with
  | stays => exact hphase
  | claimed => decide
  | registered => decide
  | poisoned => decide

section Changes

variable {l l' : Ledger n} {rs rs' : List (Registration n κ)} {now built : List (Fin n)}

/-- A change calls a build function at most once more. -/
theorem Change.keepsBuilt (h : Change l rs now l' rs') (hl : l.Tracks rs)
    (hbuilt : Built built l rs) : Built (now ++ built) l' rs' := by
  have hclaimed : ∀ cell ∈ built, (l'.cell cell).phase ≠ .unclaimed := fun cell hcell =>
    (h.advances hl cell).ne_unclaimed (hbuilt.claimed cell hcell)
  cases h with
  | idle => exact hbuilt
  | allocate memory => exact ⟨hbuilt.nodup, hclaimed, hbuilt.published⟩
  | claim call hfree =>
    refine ⟨hbuilt.nodup, hclaimed, ?_⟩
    intro r hr hcell
    rcases List.mem_cons.1 hr with rfl | hold
    · exact absurd hfree (hbuilt.claimed call.cell hcell)
    · exact hbuilt.published r hold hcell
  | publish call =>
    -- the build function was not called before, for the address was not published
    have hnew : call.cell ∉ built := fun hcell =>
      hbuilt.published _ (List.mem_cons_self ..) hcell rfl
    refine ⟨List.nodup_cons.2 ⟨hnew, hbuilt.nodup⟩, ?_, ?_⟩
    · intro cell hcell
      rcases List.mem_cons.1 hcell with rfl | hold
      · have howns := hl.owns _ (List.mem_cons_self ..)
        rw [Ledger.cell_publish_self, Ledger.cell_allocate, howns.phase]
        decide
      · exact hclaimed cell hold
    · intro r hr hcell
      rcases List.mem_cons.1 hr with rfl | hold
      · exact Option.some_ne_none _
      · rcases List.mem_cons.1 hcell with hsame | hcell
        · exact absurd (List.mem_map.2 ⟨r, hold, hsame⟩) hl.notMem
        · exact hbuilt.published r (List.mem_cons_of_mem _ hold) hcell
  | spoil call d memory hmemory => exact ⟨hbuilt.nodup, hclaimed, hbuilt.published⟩
  | finish call d memory hmemory =>
    exact ⟨hbuilt.nodup, hclaimed, fun r hr => hbuilt.published r (List.mem_cons_of_mem _ hr)⟩
  | abandon r =>
    exact ⟨hbuilt.nodup, hclaimed, fun r hr => hbuilt.published r (List.mem_cons_of_mem _ hr)⟩

end Changes

namespace Point

/-- Over a whole run each build function is called at most once. -/
theorem Run.keepsBuilt {built : List (Fin n)} {p : Point n κ} (h : Run calls start built p) :
    Built built p.ledger p.registrations := by
  induction h with
  | refl => exact ⟨List.nodup_nil, fun _ => nofun, fun _ => nofun⟩
  | tail hrun hmove ih => exact hmove.change.keepsBuilt (hrun.tracks tracks_start) ih

/-! ## Ends -/

@[simp] theorem next_ended {α : Type} (outcome : Except Fault α) (s : Session n κ) :
    (ended outcome s).next calls = none := by
  cases outcome <;> rfl

/-- What a point leads to in the end, the next point leads to as well. -/
theorem Leads.of_next {p q r : Point n κ} (h : Leads calls p r) (hend : r.next calls = none)
    (hnext : p.next calls = some q) : Leads calls q r := by
  rcases Relation.ReflTransGen.cases_head h with rfl | ⟨mid, hmid, hrest⟩
  · rw [hend] at hnext
    cases hnext
  · rw [hnext] at hmid
    cases hmid
    exact hrest

/-- Every point of a run leads to the end of the outermost code. -/
theorem Run.leads_ended {built : List (Fin n)} {p : Point n κ} (h : Run calls start built p) :
    ∃ (α : Type) (outcome : Except Fault α) (s : Session n κ), Leads calls p (ended outcome s) := by
  induction h with
  | refl => exact ⟨Unit, .ok (), .initial, .refl⟩
  | @tail _ p _ _ hmove ih =>
    cases hmove with
    | step hnext =>
      obtain ⟨α, outcome, s, hleads⟩ := ih
      exact ⟨α, outcome, s, hleads.of_next (next_ended outcome s) hnext⟩
    | run client _ => exact ⟨_, _, _, leads_run calls client p.session⟩
    | request call _ => exact ⟨_, _, _, leads_request calls call p.session⟩
    | listen listener _ =>
      exact ⟨Unit, .ok (), { p.session with listener := some listener }, .refl⟩

/-- Requests end, and types are built once.  Take any run from the start: any number of
outermost requests over any graph of types, with faults at any depth, survived anywhere.
Over the whole of it no build function is called twice, and at no point more registrations
are running than there are cells.  From each of its points the steps come to an end, at
which the outermost code has a result or a fault; what comes of a request is what
`Session.resolve` says. -/
theorem requests_end_and_build_once {built : List (Fin n)} {p : Point n κ}
    (hrun : Run calls start built p) :
    built.Nodup ∧ p.active.length ≤ n ∧
    (∃ (α : Type) (outcome : Except Fault α) (s : Session n κ),
      Leads calls p (ended outcome s) ∧ (ended outcome s).next calls = none) ∧
    ∀ call : Call n κ, Leads calls (request call p.session)
      (ended (p.session.resolve calls call).1 (p.session.resolve calls call).2) := by
  have hbound : p.active.length ≤ n := by
    have hcard := (hrun.tracks tracks_start).nodup.length_le_card
    rw [Fintype.card_fin] at hcard
    exact hcard
  obtain ⟨α, outcome, s, hleads⟩ := hrun.leads_ended
  exact ⟨hrun.keepsBuilt.nodup, hbound, ⟨α, outcome, s, hleads, next_ended outcome s⟩,
    fun call => leads_request calls call p.session⟩

/-- Two types that refer to each other are built once each, one inside of the other. -/
theorem cyclic_types_built_once :
    ∃ p : Point 2 (Fin 2), Run Session.cyclic start [1, 0] p ∧ p.active = [1, 0] ∧
      [(1 : Fin 2), 0].Nodup ∧ p.active.length ≤ 2 ∧
      ∃ (α : Type) (outcome : Except Fault α) (s : Session 2 (Fin 2)),
        Leads Session.cyclic p (ended outcome s) := by
  have h₁ := (Run.refl : Run Session.cyclic start [] start).tail (.request (Session.cyclic 0) rfl)
  have h₂ := h₁.tail (.step rfl)
  have h₃ := h₂.tail (.step rfl)
  have hrun : Run Session.cyclic start [1, 0] _ := h₃.tail (.step rfl)
  obtain ⟨hnodup, hbound, ⟨α, outcome, s, hleads, _⟩, _⟩ := requests_end_and_build_once hrun
  exact ⟨_, hrun, by rfl, hnodup, hbound, α, outcome, s, hleads⟩

end Point

end TracedHeap
