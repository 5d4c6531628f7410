import TracedHeap.Proofs.Desks

/-! # Calls of hooks

Which hooks are called while operations are carried out on handles, and what they can change.

1. **Watched runs**: the calls are those that the operations are to make.
2. **What becomes of a desk** while hooks are called (`Desk.Becomes`), for each deed and for
   runs.
3. **Moments** of a run, within the code of values too (`HandleOp.Passes`).

The main statement is `hooks_called_by_runs`.
-/

namespace TracedHeap

variable {V σ : Type} (hooks : SlotHooks σ)

/-! ## Watched runs -/

/-- The desk, as it is while the hooks are watched. -/
def Desk.watch (d : Desk V σ) (log : List HookCall) : Desk V (σ × List HookCall) :=
  ⟨d.handles, d.state, log⟩

namespace Desk

variable {hooks : SlotHooks σ} (d : Desk V σ) (log : List HookCall)

@[simp] theorem handle?_watch (place : Nat) : (d.watch log).handle? place = d.handle? place := rfl

@[simp] theorem handles_watch : (d.watch log).handles = d.handles := rfl

@[simp] theorem put_watch (h : Handle V) : (d.watch log).put h = (d.put h).watch log := rfl

@[simp] theorem take_watch (place : Nat) :
    (d.watch log).take place = (d.take place).watch log := rfl

@[simp] theorem update_watch (place : Nat) (h : Handle V) :
    (d.watch log).update place h = (d.update place h).watch log := rfl

@[simp] theorem construct_watch (h : Handle V) :
    (d.watch log).construct hooks.watched h =
      (d.construct hooks h).watch (log ++ [.created h.discipline]) := rfl

@[simp] theorem destroy_watch (place : Nat) (h : Handle V) :
    (d.watch log).destroy hooks.watched place h =
      (d.destroy hooks place h).watch (log ++ [.destroyed h.discipline]) := rfl

@[simp] theorem read_watch (place : Nat) (stored : Pointer) :
    (hooksAt hooks.watched place).read stored (d.watch log) =
      (((hooksAt hooks place).read stored d).1,
        ((hooksAt hooks place).read stored d).2.watch (log ++ [.read place stored])) := rfl

@[simp] theorem write_watch (place : Nat) (given stored : Pointer) :
    (hooksAt hooks.watched place).write given stored (d.watch log) =
      (((hooksAt hooks place).write given stored d).1,
        ((hooksAt hooks place).write given stored d).2.watch
          (log ++ [.write place given stored])) := rfl

end Desk

theorem Deed.run_watched (deed : Deed V)
    (hcode : ∀ (d : Desk V σ) log, HandleOp.runAll hooks.watched deed.code (d.watch log) =
      (HandleOp.runAll hooks deed.code d).watch (log ++ HandleOp.callsOf hooks deed.code d))
    (d : Desk V σ) (log : List HookCall) :
    deed.run hooks.watched (d.watch log) =
      (deed.run hooks d).watch (log ++ deed.calls hooks d) := by
  cases deed with
  | nothing => simp [run, calls]
  | construct ops h =>
    have hops := hcode d log
    simp only [code] at hops
    simp [run, calls, hops]
  | read place h => simp [run, calls]
  | write target place h => simp [run, calls]
  | store ops value place =>
    have hops := hcode d log
    simp only [code] at hops
    simp [run, calls, hops]
  | move place h => simp [run, calls]
  | destroy place h ops =>
    have hops := hcode (d.destroy hooks place h) (log ++ [.destroyed h.discipline])
    simp only [code] at hops
    simp [run, calls, hops]

theorem HandleOp.runAll_watched (ops : List (HandleOp V)) (d : Desk V σ) (log : List HookCall) :
    runAll hooks.watched ops (d.watch log) =
      (runAll hooks ops d).watch (log ++ callsOf hooks ops d) := by
  induction ops using HandleOp.induction generalizing d log with
  | nil => simp [runAll, callsOf]
  | cons op rest hcode hrest =>
    obtain ⟨hrun, hcalls, -⟩ := op.run_calls_deed hooks d
    obtain ⟨hwatched, -, -⟩ := op.run_calls_deed hooks.watched (d.watch log)
    have hop : op.run hooks.watched (d.watch log) =
        (op.run hooks d).watch (log ++ op.calls hooks d) := by
      rw [hwatched, hrun, hcalls]
      exact (op.deed d.handle?).run_watched hooks (hcode _) d log
    rw [runAll, runAll, callsOf, hop, hrest, List.append_assoc]

/-! ## What becomes of a desk -/

/-- The pointer that a handle stores, if it is a reference. -/
def Handle.stored? : Handle V → Option Pointer
  | .value _ => none
  | .reference h => some h.stored

namespace Desk

/-- Number of live handles of certain disciplines. -/
def live (which : Discipline → Bool) (d : Desk V σ) : Nat :=
  d.handles.countP (·.any (which ·.discipline))

/-- What can have become of a desk when some hooks were called. -/
structure Becomes (d : Desk V σ) (calls : List HookCall) (d' : Desk V σ) : Prop where
  /-- One handle was constructed for each call that says so, and one destroyed. -/
  counted : ∀ which, calls.countP (·.creates which) + d.live which =
    calls.countP (·.destroys which) + d'.live which
  places : d.handles.length ≤ d'.handles.length
  /-- A handle stays what it is.  What it stores is only changed by hooks on its slot. -/
  kept : ∀ {place h'}, place < d.handles.length → d'.handle? place = some h' →
    ∃ h, d.handle? place = some h ∧ h.discipline = h'.discipline ∧
      ((∀ call ∈ calls, call.slot? ≠ some place) → h.stored? = h'.stored?)

variable {d d' d'' : Desk V σ} {calls more : List HookCall} {place other : Nat} {h : Handle V}

theorem handle?_append (hother : other < d.handles.length)
    (hhandles : d'.handles = d.handles ++ [some h]) : d'.handle? other = d.handle? other := by
  rw [handle?, hhandles, List.getElem?_append_left hother]
  rfl

theorem handle?_take (place other : Nat) :
    (d.take place).handle? other = if other = place then none else d.handle? other := by
  simp only [handle?, take, List.getElem?_set]
  by_cases hsame : other = place
  · subst hsame
    by_cases hin : other < d.handles.length <;> simp [hin]
  · rw [if_neg hsame, if_neg (Ne.symm hsame)]

theorem handle?_update (place other : Nat) (h : Handle V) :
    (d.update place h).handle? other =
      if other = place then
        (d.handle? place).map fun old => if old.discipline = h.discipline then h else old
      else d.handle? other := by
  simp only [handle?, update, List.getElem?_modify]
  by_cases hsame : other = place
  · subst hsame
    cases d.handles[other]? <;> simp
  · simp [hsame, Ne.symm hsame]

theorem lt_of_handle? (hh : d.handle? place = some h) : place < d.handles.length := by
  refine Nat.lt_of_not_le fun hout => ?_
  rw [handle?, List.getElem?_eq_none hout] at hh
  cases hh

theorem live_append (which : Discipline → Bool) (hhandles : d'.handles = d.handles ++ [some h]) :
    d'.live which = d.live which + if which h.discipline then 1 else 0 := by
  rw [live, hhandles, List.countP_append, List.countP_singleton]
  rfl

theorem live_take (which : Discipline → Bool) (hh : d.handle? place = some h) :
    (d.take place).live which + (if which h.discipline then 1 else 0) = d.live which := by
  have hin := lt_of_handle? hh
  have hat : d.handles[place] = some h := by
    rw [handle?, List.getElem?_eq_getElem hin] at hh
    exact hh
  have hpos : (if which h.discipline then 1 else 0) ≤ d.live which := by
    split
    · rename_i hwhich
      refine List.countP_pos_iff.2 ⟨some h, ?_, hwhich⟩
      rw [← hat]
      exact List.getElem_mem hin
    · exact Nat.zero_le _
  simp only [live, take, List.countP_set hin, hat] at hpos ⊢
  simp only [Option.any_some, Option.any_none, Bool.false_eq_true, if_false]
  omega

theorem live_update (which : Discipline → Bool) (place : Nat) (h : Handle V) :
    (d.update place h).live which = d.live which := by
  have hdisciplines : (d.update place h).handles.map (·.map Handle.discipline) =
      d.handles.map (·.map Handle.discipline) := by
    refine List.ext_getElem? fun i => ?_
    simp only [update, List.getElem?_map, List.getElem?_modify]
    rcases d.handles[i]? with _ | _ | old
    · rfl
    · simp
    · by_cases hi : place = i <;> by_cases hsame : old.discipline = h.discipline <;>
        simp [hi, hsame]
  have hlive (hs : List (Option (Handle V))) :
      hs.countP (·.any (which ·.discipline)) =
        (hs.map (·.map Handle.discipline)).countP (·.any which) := by
    rw [List.countP_map]
    congr 1
    funext o
    cases o <;> rfl
  rw [live, live, hlive, hlive, hdisciplines]

namespace Becomes

theorem refl (d : Desk V σ) : d.Becomes [] d where
  counted _ := rfl
  places := Nat.le_refl _
  kept _ hh := ⟨_, hh, rfl, fun _ => rfl⟩

theorem trans (h : d.Becomes calls d') (h' : d'.Becomes more d'') :
    d.Becomes (calls ++ more) d'' := by
  constructor
  case counted =>
    intro which
    have hcounted := h.counted which
    have hmore := h'.counted which
    simp only [List.countP_append]
    omega
  case places => exact Nat.le_trans h.places h'.places
  case kept =>
    intro place h'' hplace hh''
    obtain ⟨mid, hmid, hdiscipline, hstored⟩ := h'.kept (Nat.lt_of_lt_of_le hplace h.places) hh''
    obtain ⟨old, hold, holddiscipline, holdstored⟩ := h.kept hplace hmid
    refine ⟨old, hold, holddiscipline.trans hdiscipline, fun hquiet => ?_⟩
    have hfirst : ∀ call ∈ calls, call.slot? ≠ some place :=
      fun call hcall => hquiet call (List.mem_append_left _ hcall)
    have hsecond : ∀ call ∈ more, call.slot? ≠ some place :=
      fun call hcall => hquiet call (List.mem_append_right _ hcall)
    exact (holdstored hfirst).trans (hstored hsecond)

/-- The state of the hooks is of no account. -/
theorem congr (h : d.Becomes calls d') (hsame : d''.handles = d'.handles) :
    d.Becomes calls d'' := by
  have hat (place : Nat) : d''.handle? place = d'.handle? place := by
    rw [handle?, hsame]
    rfl
  constructor
  case counted =>
    intro which
    rw [h.counted which, live, live, hsame]
  case places =>
    rw [hsame]
    exact h.places
  case kept =>
    intro place h' hplace hh'
    rw [hat] at hh'
    exact h.kept hplace hh'

theorem constructed (h : Handle V) (hhandles : d'.handles = d.handles ++ [some h]) :
    d.Becomes [.created h.discipline] d' := by
  constructor
  case counted =>
    intro which
    rw [live_append which hhandles]
    cases hwhich : which h.discipline <;> simp [HookCall.creates, HookCall.destroys, hwhich]
    omega
  case places => simp [hhandles]
  case kept =>
    intro place h' hplace hh'
    rw [handle?_append hplace hhandles] at hh'
    exact ⟨h', hh', rfl, fun _ => rfl⟩

theorem taken (hh : d.handle? place = some h) :
    d.Becomes [.destroyed h.discipline] (d.take place) := by
  constructor
  case counted =>
    intro which
    have hlive := live_take which hh
    cases hwhich : which h.discipline <;>
      simp [HookCall.creates, HookCall.destroys, hwhich] at hlive ⊢ <;> omega
  case places => simp [take]
  case kept =>
    intro other h' _ hh'
    rw [handle?_take] at hh'
    split at hh'
    · cases hh'
    · exact ⟨h', hh', rfl, fun _ => rfl⟩

theorem destroyed (hooks : SlotHooks σ) (hh : d.handle? place = some h) :
    d.Becomes [.destroyed h.discipline] (d.destroy hooks place h) :=
  (taken hh).congr rfl

theorem moved (hh : d.handle? place = some h) : d.Becomes [] ((d.take place).put h) := by
  have hput : ((d.take place).put h).handles = (d.take place).handles ++ [some h] := rfl
  constructor
  case counted =>
    intro which
    have hlive := live_take which hh
    rw [live_append which hput]
    simp only [List.countP_nil]
    omega
  case places => simp [take, put]
  case kept =>
    intro other h' hother hh'
    have hin : other < (d.take place).handles.length := by simpa [take] using hother
    rw [handle?_append hin hput] at hh'
    obtain ⟨old, hold, hdiscipline, hstored⟩ := (taken hh).kept hother hh'
    exact ⟨old, hold, hdiscipline, fun _ => hstored (by simp [HookCall.slot?])⟩

/-- What a handle stores is changed, and hooks are called on its slot, or what is stored is
no pointer. -/
theorem updated
    (hneither : ∀ which, calls.countP (·.creates which) = calls.countP (·.destroys which))
    (hstored : (∀ call ∈ calls, call.slot? ≠ some place) →
      ∀ old : Handle V, old.discipline = h.discipline → old.stored? = h.stored?) :
    d.Becomes calls (d.update place h) := by
  constructor
  case counted =>
    intro which
    rw [live_update, hneither]
  case places => simp [update]
  case kept =>
    intro other h' _ hh'
    rw [handle?_update] at hh'
    by_cases hother : other = place
    · subst hother
      rw [if_pos rfl, Option.map_eq_some_iff] at hh'
      obtain ⟨old, hold, rfl⟩ := hh'
      refine ⟨old, hold, ?_⟩
      by_cases hsame : old.discipline = h.discipline
      · rw [if_pos hsame]
        exact ⟨hsame, fun hquiet => hstored hquiet old hsame⟩
      · rw [if_neg hsame]
        exact ⟨rfl, fun _ => rfl⟩
    · rw [if_neg hother] at hh'
      exact ⟨h', hh', rfl, fun _ => rfl⟩

theorem updated_value (d : Desk V σ) (place : Nat) (h : ValueHandle V) :
    d.Becomes [] (d.update place (.value h)) := by
  refine updated (fun _ => rfl) fun _ old hvalue => ?_
  cases old with
  | value old => rfl
  | reference old =>
    obtain ⟨strength, stored⟩ := old
    cases strength <;> cases hvalue

theorem updated_by {call : HookCall} (hslot : call.slot? = some place) (d : Desk V σ)
    (h : Handle V) : d.Becomes [call] (d.update place h) := by
  refine updated (fun which => ?_) fun hquiet => absurd hslot (hquiet call List.mem_cons_self)
  cases call with
  | created discipline | destroyed discipline => cases hslot
  | read slot stored => rfl
  | write slot given stored => rfl

end Becomes

end Desk

theorem Deed.becomes (deed : Deed V) {d : Desk V σ} (hfinds : deed.Finds d.handle?)
    (hcode : ∀ d : Desk V σ, d.Becomes (HandleOp.callsOf hooks deed.code d)
      (HandleOp.runAll hooks deed.code d)) :
    d.Becomes (deed.calls hooks d) (deed.run hooks d) := by
  cases deed with
  | nothing => exact .refl d
  | construct code h => exact (hcode d).trans (.constructed h rfl)
  | read place h => exact (Desk.Becomes.updated_by rfl d _).congr rfl
  | write target place h => exact (Desk.Becomes.updated_by rfl d _).congr rfl
  | store code value place =>
    have hstored := (hcode d).trans (.updated_value _ place ⟨value⟩)
    rw [List.append_nil] at hstored
    exact hstored
  | move place h => exact .moved hfinds
  | destroy place h code => exact (Desk.Becomes.destroyed hooks hfinds).trans (hcode _)

theorem HandleOp.runAll_becomes (ops : List (HandleOp V)) (d : Desk V σ) :
    d.Becomes (callsOf hooks ops d) (runAll hooks ops d) := by
  induction ops using HandleOp.induction generalizing d with
  | nil => exact .refl d
  | cons op rest hcode hrest =>
    obtain ⟨hrun, hcalls, hfinds⟩ := op.run_calls_deed hooks d
    have hop : d.Becomes (op.calls hooks d) (op.run hooks d) := by
      rw [hrun, hcalls]
      exact (op.deed d.handle?).becomes hooks hfinds (hcode _)
    exact hop.trans (hrest _)

/-! ## Moments -/

/-- There is a moment, when operations are carried out on a desk, at which the hooks were
called so far and the desk is like this.  It may be in the midst of the code of a value. -/
inductive HandleOp.Passes : Desk V σ → List (HandleOp V) → List HookCall → Desk V σ → Prop
  | start (d : Desk V σ) (ops : List (HandleOp V)) : Passes d ops [] d
  | past {d d' : Desk V σ} {op : HandleOp V} {rest : List (HandleOp V)} {calls : List HookCall}
      (hrest : Passes (op.run hooks d) rest calls d') :
      Passes d (op :: rest) (op.calls hooks d ++ calls) d'
  | constructing {d d' : Desk V σ} {op : HandleOp V} {code rest : List (HandleOp V)} {h : Handle V}
      {calls : List HookCall} (hdeed : op.deed d.handle? = .construct code h)
      (hcode : Passes d code calls d') : Passes d (op :: rest) calls d'
  | storing {d d' : Desk V σ} {op : HandleOp V} {code rest : List (HandleOp V)} {value : V}
      {place : Nat} {calls : List HookCall} (hdeed : op.deed d.handle? = .store code value place)
      (hcode : Passes d code calls d') : Passes d (op :: rest) calls d'
  | destroying {d d' : Desk V σ} {op : HandleOp V} {code rest : List (HandleOp V)} {h : Handle V}
      {place : Nat} {calls : List HookCall} (hdeed : op.deed d.handle? = .destroy place h code)
      (hcode : Passes (d.destroy hooks place h) code calls d') :
      Passes d (op :: rest) (.destroyed h.discipline :: calls) d'

namespace HandleOp

variable {hooks} {d d' : Desk V σ} {ops : List (HandleOp V)} {calls : List HookCall}

theorem becomes (op : HandleOp V) (d : Desk V σ) :
    d.Becomes (op.calls hooks d) (op.run hooks d) := by
  have hop := runAll_becomes hooks [op] d
  simp only [callsOf, runAll, List.append_nil] at hop
  exact hop

theorem Passes.becomes (h : Passes hooks d ops calls d') : d.Becomes calls d' := by
  induction h with
  | start d ops => exact .refl d
  | past _ ih => exact (HandleOp.becomes _ _).trans ih
  | constructing _ _ ih => exact ih
  | storing _ _ ih => exact ih
  | @destroying d _ op _ _ _ _ _ hdeed _ ih =>
    obtain ⟨-, -, hfinds⟩ := op.run_calls_deed hooks d
    rw [hdeed] at hfinds
    exact (Desk.Becomes.destroyed hooks hfinds).trans ih

theorem Passes.calls_prefix (h : Passes hooks d ops calls d') : calls <+: callsOf hooks ops d := by
  induction h with
  | start d ops => exact List.nil_prefix
  | past _ ih => exact (List.prefix_append_right_inj _).2 ih
  | constructing hdeed _ ih =>
    rw [callsOf, calls_deed, hdeed, Deed.calls, List.append_assoc]
    exact ih.trans (List.prefix_append _ _)
  | storing hdeed _ ih =>
    rw [callsOf, calls_deed, hdeed, Deed.calls]
    exact ih.trans (List.prefix_append _ _)
  | destroying hdeed _ ih =>
    rw [callsOf, calls_deed, hdeed, Deed.calls, List.cons_append]
    exact (List.prefix_cons_inj _).2 (ih.trans (List.prefix_append _ _))

theorem passes_runAll (ops : List (HandleOp V)) (d : Desk V σ) :
    Passes hooks d ops (callsOf hooks ops d) (runAll hooks ops d) := by
  induction ops generalizing d with
  | nil => exact .start d []
  | cons op rest ih => exact .past (ih _)

theorem prefix_append_cases {α : Type} {l a b : List α} (h : l <+: a ++ b) :
    l <+: a ∨ ∃ m, l = a ++ m ∧ m <+: b := by
  obtain ⟨t, ht⟩ := h
  rcases List.append_eq_append_iff.1 ht with ⟨c, rfl, -⟩ | ⟨c, rfl, rfl⟩
  · exact Or.inl (List.prefix_append l c)
  · exact Or.inr ⟨c, rfl, List.prefix_append c t⟩

/-- The hooks are never called without a moment at which they were called so far. -/
theorem exists_passes (ops : List (HandleOp V)) (d : Desk V σ) (calls : List HookCall)
    (hfirst : calls <+: callsOf hooks ops d) : ∃ d', Passes hooks d ops calls d' := by
  induction ops using HandleOp.induction generalizing d calls with
  | nil =>
    rw [callsOf, List.prefix_nil] at hfirst
    exact ⟨d, hfirst ▸ .start d []⟩
  | cons op rest hcode hrest =>
    rcases prefix_append_cases hfirst with hop | ⟨more, rfl, hmore⟩
    · have hwhole : calls = op.calls hooks d → ∃ d', Passes hooks d (op :: rest) calls d' := by
        intro hall
        rw [hall, ← List.append_nil (op.calls hooks d)]
        exact ⟨_, .past (.start (op.run hooks d) rest)⟩
      specialize hcode d.handle?
      -- of what is one call only, all was called or nothing
      cases hdeed : op.deed d.handle? <;>
        rw [calls_deed, hdeed, Deed.calls] at hop hwhole <;> rw [hdeed] at hcode
      case nothing | move =>
        rw [List.prefix_nil] at hop
        exact hwhole hop
      case read | write =>
        rcases List.prefix_cons_iff.1 hop with rfl | ⟨none, rfl, hnone⟩
        · exact ⟨d, .start d _⟩
        · rw [List.prefix_nil] at hnone
          exact hwhole (by rw [hnone])
      case construct code h =>
        rcases prefix_append_cases hop with hop | ⟨more, rfl, hmore⟩
        · exact (hcode d calls hop).imp fun d' => .constructing hdeed
        · rcases List.prefix_cons_iff.1 hmore with rfl | ⟨none, rfl, hnone⟩
          · rw [List.append_nil]
            exact (hcode d _ (List.prefix_refl _)).imp fun d' => .constructing hdeed
          · rw [List.prefix_nil] at hnone
            exact hwhole (by rw [hnone])
      case store code value place => exact (hcode d calls hop).imp fun d' => .storing hdeed
      case destroy place h code =>
        rcases List.prefix_cons_iff.1 hop with rfl | ⟨inner, rfl, hinner⟩
        · exact ⟨d, .start d _⟩
        · exact (hcode _ inner hinner).imp fun d' => .destroying hdeed
    · exact (hrest _ _ hmore).imp fun d' => .past

/-! ## The calls of a run -/

theorem handles_clone_reference {source : Nat} {h : RefHandle}
    (hsource : d.handle? source = some (.reference h)) (code : List (HandleOp V)) (copy : V) :
    ((clone source code copy).run hooks d).handles = d.handles ++ [some (.reference h)] := by
  simp only [run, Desk.clone, hsource]
  rfl

theorem handles_clone_value {source : Nat} {h : ValueHandle V}
    (hsource : d.handle? source = some (.value h)) (code : List (HandleOp V)) (copy : V) :
    ((clone source code copy).run hooks d).handles =
      (runAll hooks code d).handles ++ [some (.value ⟨copy⟩)] := by
  simp only [run, Desk.clone, hsource]
  rfl

theorem handle?_assign_reference {place source other : Nat} {h : RefHandle}
    (hplace : d.handle? place = some (.reference h)) (hother : other ≠ place)
    (code : List (HandleOp V)) (copy : V) :
    ((assign place source code copy).run hooks d).handle? other = d.handle? other := by
  obtain ⟨hrun, -, -⟩ := (assign place source code copy).run_calls_deed hooks d
  rw [hrun]
  simp only [deed, hplace]
  split
  · rename_i heq _
    cases heq
  · split
    · exact (Desk.handle?_update _ _ _).trans (if_neg hother)
    · rfl
  · rfl

theorem handle?_assign_value {place source other : Nat} {h h' : ValueHandle V}
    (hplace : d.handle? place = some (.value h)) (hsource : d.handle? source = some (.value h'))
    (hother : other ≠ place) (code : List (HandleOp V)) (copy : V) :
    ((assign place source code copy).run hooks d).handle? other =
      (runAll hooks code d).handle? other := by
  simp only [run, Desk.assign, hplace, hsource, Handle.assign, ValueHandle.assign]
  rw [Desk.handle?_update, if_neg hother]

/-- The calls of hooks.  In every run of operations on handles, whatever the hooks do:

* the hooks are called just as the operations tell (`HandleOp.calls`), and to be watched
  changes nothing;
* at every moment, that is after any of these calls, as many handles of each discipline have
  been constructed less those destroyed as there are more live ones than at first;
* at every moment a handle that is still at its place is of the same discipline and stores the
  same pointer, unless hooks have been called on its slot since;
* a handle stores what it is constructed with; a copy of a reference stores what that stores,
  which stays as it is; an assignment changes no other handle; and a move changes nothing.
  What values do themselves comes on top of that. -/
theorem hooks_called_by_runs (hooks : SlotHooks σ) (ops : List (HandleOp V)) (d : Desk V σ) :
    runAll hooks.watched ops (d.watch []) = (runAll hooks ops d).watch (callsOf hooks ops d) ∧
    (∀ calls, calls <+: callsOf hooks ops d ↔ ∃ d', Passes hooks d ops calls d') ∧
    Passes hooks d ops (callsOf hooks ops d) (runAll hooks ops d) ∧
    (∀ calls d', Passes hooks d ops calls d' →
      (∀ which, calls.countP (·.creates which) + d.live which =
        calls.countP (·.destroys which) + d'.live which) ∧
      ∀ place h h', d.handle? place = some h → d'.handle? place = some h' →
        h.discipline = h'.discipline ∧
        ((∀ call ∈ calls, call.slot? ≠ some place) → h.stored? = h'.stored?)) ∧
    (∀ content, ((fromRepr content).run hooks d).handles = d.handles ++ [some content]) ∧
    (∀ strength target, ((new strength target).run hooks d).handles =
      d.handles ++ [some (.reference ⟨strength, target⟩)]) ∧
    (∀ source h code copy, d.handle? source = some (.reference h) →
      ((clone source code copy).run hooks d).handles = d.handles ++ [some (.reference h)]) ∧
    (∀ source h code copy, d.handle? source = some (.value h) →
      ((clone source code copy).run hooks d).handles =
        (runAll hooks code d).handles ++ [some (.value ⟨copy⟩)]) ∧
    (∀ place source other h code copy, d.handle? place = some (.reference h) → other ≠ place →
      ((assign place source code copy).run hooks d).handle? other = d.handle? other) ∧
    (∀ place source other h h' code copy, d.handle? place = some (.value h) →
      d.handle? source = some (.value h') → other ≠ place →
      ((assign place source code copy).run hooks d).handle? other =
        (runAll hooks code d).handle? other) ∧
    (∀ place h, d.handle? place = some h → (move place).run hooks d = (d.take place).put h) := by
  refine ⟨?_, fun calls => ⟨exists_passes ops d calls, fun ⟨_, h⟩ => h.calls_prefix⟩,
    passes_runAll ops d, fun calls d' hpasses => ⟨hpasses.becomes.counted, ?_⟩, fun _ => rfl,
    fun _ _ => rfl,
    fun _ _ code copy hsource => handles_clone_reference hsource code copy,
    fun _ _ code copy hsource => handles_clone_value hsource code copy,
    fun _ _ _ _ code copy hplace hother => handle?_assign_reference hplace hother code copy,
    fun _ _ _ _ _ code copy hplace hsource hother =>
      handle?_assign_value hplace hsource hother code copy, ?_⟩
  · rw [runAll_watched, List.nil_append]
  · intro place h h' hh hh'
    obtain ⟨old, hold, hdiscipline, hstored⟩ := hpasses.becomes.kept (Desk.lt_of_handle? hh) hh'
    rw [hh] at hold
    cases hold
    exact ⟨hdiscipline, hstored⟩
  · intro place h hplace
    simp only [run, Desk.move, hplace]

/-- A value that holds a strong reference is copied, and the copy destroyed in the end.
Meanwhile a hook has put nothing in place of the first target, and another one has stored an
object that it was not given. -/
theorem copied_value_and_its_reference_counted :
    let hooks : SlotHooks Unit :=
      ⟨fun _ s => s, fun _ s => s, fun _ stored s => (⟨stored, none⟩, s),
        fun _ _ _ s => (some (.object 9), s)⟩
    let ops : List (HandleOp Char) :=
      [.fromRepr (.reference ⟨.strong, some (.object 1)⟩), .fromRepr (.value ⟨'v'⟩),
        .clone 1 [.clone 0 [] '-'] 'w', .look .get 0, .set none 2, .move 2,
        .drop 3 [.drop 4 []]]
    let d : Desk Char Unit := ⟨[], ()⟩
    (runAll hooks.watched ops (d.watch [])).state.2 =
      [.created .strong, .created .value, .created .strong, .created .value,
        .read 0 (some (.object 1)), .write 2 none (some (.object 1)), .destroyed .value,
        .destroyed .strong] ∧
    (runAll hooks ops d).live (· = .strong) = 1 ∧ (runAll hooks ops d).live (· = .value) = 1 ∧
    ∃ midst, Passes hooks d ops [.created .strong, .created .value, .created .strong] midst ∧
      midst.live (· = .strong) = 2 := by
  intro hooks ops d
  obtain ⟨hwatched, hmoments, hend, hcounts, -⟩ := hooks_called_by_runs hooks ops d
  have hcalls : callsOf hooks ops d =
      [.created .strong, .created .value, .created .strong, .created .value,
        .read 0 (some (.object 1)), .write 2 none (some (.object 1)), .destroyed .value,
        .destroyed .strong] := by decide +kernel
  rw [hcalls] at hwatched hmoments hend
  obtain ⟨midst, hmidst⟩ := (hmoments [.created .strong, .created .value, .created .strong]).1
    ⟨_, rfl⟩
  have hnone (which : Discipline → Bool) : d.live which = 0 := rfl
  have hstrong := (hcounts _ _ hend).1 (· = .strong)
  have hvalue := (hcounts _ _ hend).1 (· = .value)
  have hmeanwhile := (hcounts _ _ hmidst).1 (· = .strong)
  simp [hnone, HookCall.creates, HookCall.destroys] at hstrong hvalue hmeanwhile
  refine ⟨?_, by omega, by omega, midst, hmidst, hmeanwhile.symm⟩
  rw [hwatched]
  rfl

end HandleOp

end TracedHeap
