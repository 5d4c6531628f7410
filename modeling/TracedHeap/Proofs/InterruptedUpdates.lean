import TracedHeap.Proofs.RefusedUpdates

/-! # Updates that are interrupted

The code of an update changes its handle in place, and the handle is registered anew only
after that code has returned.  So when the code fails, the handle stores what it was made
to store, but is registered as what it stored when it was registered last.

1. **Edits** of a reference, any number of them (`RefHandle.editAll`), and which pointer they
   leave (`RefHandle.lastGiven`).
2. **One update** that is interrupted (`PersistentHandle.update_interrupted`).
3. **Runs**: an interrupted update is a step like any other, and the target that is stored
   from then on is a root only if some handle is registered as it.

The main statement is `interrupted_update_keeps_old_root`.
-/

namespace TracedHeap

open Relation (ReflTransGen)

variable {σ D V ω : Type}

/-! ## Edits -/

namespace RefHandle

/-- What code that changes a reference does at a time. -/
inductive Edit (σ : Type) where
  /-- Points the reference to a target. -/
  | set (target : Pointer)
  /-- Points it to what another one stores. -/
  | assign (other : RefHandle)
  /-- Does something that leaves it alone. -/
  | elsewhere (code : σ → σ)

/-- Edits a reference once. -/
def edit (hooks : Hooks σ) (h : RefHandle) : Edit σ → σ → RefHandle × σ
  | .set target, s => h.set hooks target s
  | .assign other, s => h.assign hooks other s
  | .elsewhere code, s => (h, code s)

/-- Edits a reference any number of times. -/
def editAll (hooks : Hooks σ) (h : RefHandle) : List (Edit σ) → σ → RefHandle × σ
  | [], s => (h, s)
  | e :: edits, s => (h.edit hooks e s).1.editAll hooks edits (h.edit hooks e s).2

/-- The pointer that was given last, or else the one that was stored. -/
def lastGiven (stored : Pointer) : List (Edit σ) → Pointer
  | [] => stored
  | .set target :: edits => lastGiven target edits
  | .assign other :: edits => lastGiven other.stored edits
  | .elsewhere _ :: edits => lastGiven stored edits

variable {hooks : Hooks σ}

theorem edit_strength (h : RefHandle) (e : Edit σ) (s : σ) :
    (h.edit hooks e s).1.strength = h.strength := by
  cases e <;> rfl

/-- Edits do not change whether a reference is strong. -/
theorem editAll_strength (h : RefHandle) (edits : List (Edit σ)) (s : σ) :
    (h.editAll hooks edits s).1.strength = h.strength := by
  induction edits generalizing h s with
  | nil => rfl
  | cons e edits ih => exact (ih _ _).trans (h.edit_strength e s)

/-- If the write hook stores what it is given, then edits leave what was given last. -/
theorem editAll_stored (hplain : ∀ given stored s, (hooks.write given stored s).1 = given)
    (h : RefHandle) (edits : List (Edit σ)) (s : σ) :
    (h.editAll hooks edits s).1.stored = lastGiven h.stored edits := by
  induction edits generalizing h s with
  | nil => rfl
  | cons e edits ih =>
    rw [editAll, ih]
    cases e with
    | set target => exact congrArg (lastGiven · edits) (hplain target h.stored s)
    | assign other => exact congrArg (lastGiven · edits) (hplain other.stored h.stored s)
    | elsewhere code => rfl

end RefHandle

/-! ## One update -/

namespace PersistentHandle

variable {p : PersistentHandle D V} {w : World σ D ω} {change : Change σ V} {fault : Fault}

/-- A handle is registered as what it stores. -/
def InSync (p : PersistentHandle D V) : Prop := p.registered = p.identity

theorem identity_of_strong {h : RefHandle} (hkind : p.handle = .reference h)
    (hstrong : h.strength = .strong) : p.identity = h.stored := by
  rcases h with ⟨strength, stored⟩
  cases hstrong
  rw [identity, hkind]

/-- An interrupted update comes to what its code has done: no root is added or removed, and
the handle is registered as before. -/
theorem update_interrupted [BEq D] {handle : Handle V} {s : σ}
    (hchange : change p.handle w.collector = (.error fault, handle, s)) :
    (p.update change).runOn w =
      (.ok ({ p with handle }, .error fault), { w with collector := s }) := by
  have hfault : (change p.handle w.collector).1 = .error fault := by rw [hchange]
  rw [update_runOn_of_error hfault, changedBy, afterChange, hchange]

/-- Code that fails does not get to the new registration, so that none is refused. -/
theorem granted_of_error [BEq D] (hfault : (change p.handle w.collector).1 = .error fault) :
    p.Granted change w := by
  intro hok
  rw [hfault] at hok
  cases hok

/-- Dropping a handle takes back the one count of its registration. -/
theorem drop_balanced {others : List (PersistentHandle D V)} (hw : w.Balanced (p :: others)) :
    (p.drop.runOn w).1 = .ok () ∧ ∀ k,
      w.pool.refcount k =
        (p.drop.runOn w).2.pool.refcount k + if p.registered = some k then 1 else 0 := by
  obtain ⟨w', hdrop, hw'⟩ := unregister_balanced hw
  unfold drop
  rw [hdrop]
  refine ⟨rfl, fun k => ?_⟩
  rw [hw.accounts.counted, hw'.accounts.counted, holders_cons]

end PersistentHandle

/-! ## Runs -/

/-- There is a root at an address exactly if some handle is registered as it. -/
theorem World.Balanced.root_iff {w : World σ D ω} {live : List (PersistentHandle D V)}
    (hw : w.Balanced live) {k : Address} :
    (∃ descriptor, (descriptor, k) ∈ w.pool.roots) ↔ ∃ q ∈ live, q.registered = some k := by
  simp only [hw.accounts.sound.mem_roots_iff]
  rw [← hw.accounts.sound.refcount_pos_iff, hw.accounts.refcount_pos_iff]

namespace Losing

variable {l l' : Losing σ D V ω}

theorem Reached.step [BEq D] (hreached : l.Reached) (hstep : Step l l') : l'.Reached := by
  obtain ⟨start, hempty, hsteps⟩ := hreached
  exact ⟨start, hempty, hsteps.tail hstep⟩

/-- The live handle between two parts of a list can be brought to the front. -/
theorem Balanced.front (hl : l.Balanced) {before after : List (PersistentHandle D V)}
    {p : PersistentHandle D V} (hlive : l.live = before ++ p :: after) :
    l.world.Balanced (p :: (before ++ after ++ l.lost)) := by
  refine ⟨hl.idle, hl.accounts.perm ?_⟩
  rw [hlive, List.append_assoc, List.append_assoc, List.cons_append]
  exact List.perm_middle

/-- Interrupted updates.  Let the code of an update point a strong reference to targets and to
what other references store, any number of times and through any hooks, and then fail, in any
state of the world.  The handle then stores what the hooks have made of it, which is what was
given last if they store what they are given.  No root was added or removed, and the handle is
registered as before.  So it is in sync exactly if it stores again what it is registered as.

In any run, with refused updates or without:

* it goes on as after any step;
* the target that is stored is a root exactly if this handle was registered as it before, or
  another handle is, or was and lost its registration;
* dropping the handle takes back the old registration, and no other;
* the handle is in sync again after an update that returns and is not refused. -/
theorem interrupted_update_keeps_old_root [BEq D] [LawfulBEq D] {p : PersistentHandle D V}
    {h : RefHandle} {w : World σ D ω} {hooks : Hooks σ} {edits : List (RefHandle.Edit σ)}
    {change : PersistentHandle.Change σ V} {fault : Fault} (hkind : p.handle = .reference h)
    (hstrong : h.strength = .strong)
    (hchange : change p.handle w.collector =
      (.error fault, .reference (h.editAll hooks edits w.collector).1,
        (h.editAll hooks edits w.collector).2)) :
    ∃ p' w', (p.update change).runOn w = (.ok (p', .error fault), w') ∧
      p'.handle = .reference (h.editAll hooks edits w.collector).1 ∧
      p'.registered = p.registered ∧ w'.roots = w.roots ∧
      (p'.InSync ↔ (h.editAll hooks edits w.collector).1.stored = p.registered) ∧
      ((∀ given stored s, (hooks.write given stored s).1 = given) →
        (p'.InSync ↔ RefHandle.lastGiven h.stored edits = p.registered)) ∧
      ∀ (l : Losing σ D V ω) before after, l.Reached → l.world = w →
        l.live = before ++ p :: after →
        (⟨⟨w', before ++ p' :: after⟩, l.lost⟩ : Losing σ D V ω).Reached ∧
        (∀ k, (h.editAll hooks edits w.collector).1.stored = some k →
          ((∃ descriptor, (descriptor, k) ∈ w'.pool.roots) ↔
            p.registered = some k ∨ ∃ q ∈ before ++ after ++ l.lost, q.registered = some k)) ∧
        ((p'.drop.runOn w').1 = .ok () ∧ ∀ k, w'.pool.refcount k =
          (p'.drop.runOn w').2.pool.refcount k + if p.registered = some k then 1 else 0) ∧
        ∀ change' : PersistentHandle.Change σ V,
          (change' p'.handle w'.collector).1 = .ok () → p'.Granted change' w' →
          (p'.changedBy change' w').handle.discipline = p'.handle.discipline →
          ∃ p'' w'', (p'.update change').runOn w' = (.ok (p'', .ok ()), w'') ∧ p''.InSync := by
  have hstored : (h.editAll hooks edits w.collector).1.strength = .strong :=
    (h.editAll_strength edits w.collector).trans hstrong
  generalize hdone : h.editAll hooks edits w.collector = done at hchange hstored ⊢
  have hupdate := PersistentHandle.update_interrupted hchange
  let p' : PersistentHandle D V := { p with handle := .reference done.1 }
  let w' : World σ D ω := { w with collector := done.2 }
  have hsync : p'.InSync ↔ done.1.stored = p.registered := by
    rw [PersistentHandle.InSync, PersistentHandle.identity_of_strong (p := p') rfl hstored]
    exact eq_comm
  refine ⟨p', w', hupdate, rfl, rfl, rfl, hsync, ?_, ?_⟩
  · intro hplain
    rw [hsync, ← RefHandle.editAll_stored hplain h edits w.collector, hdone]
  · rintro l before after hreached rfl hlive
    have hgranted : p.Granted change l.world :=
      PersistentHandle.granted_of_error (congrArg (·.1) hchange)
    have hsame : (p.changedBy change l.world).handle.discipline = p.handle.discipline := by
      rw [PersistentHandle.changedBy, hchange, hkind]
      exact congrArg Strength.discipline (hstored.trans hstrong.symm)
    have hlater : (⟨⟨w', before ++ p' :: after⟩, l.lost⟩ : Losing σ D V ω).Reached :=
      hreached.step (.kept (.updated hlive hsame hgranted hupdate))
    have hfront : w'.Balanced (p' :: (before ++ after ++ l.lost)) := hlater.balanced.front rfl
    refine ⟨hlater, ?_, PersistentHandle.drop_balanced hfront, ?_⟩
    · intro k _
      rw [hfront.root_iff, List.exists_mem_cons_iff]
    · intro change' hok hgranted hkept
      obtain ⟨p'', w'', hagain, -, hupdated⟩ :=
        PersistentHandle.update_balanced hfront change' hgranted hkept
      rw [hok] at hagain
      exact ⟨p'', w'', hagain, hupdated.registered hok⟩

/-- A root is pointed from the first object to the fifth one by code that fails then.  The handle
stores the fifth object, which is no root; the first one still is. -/
theorem new_target_of_interrupted_update_not_rooted :
    let type : TypeInfo Char := ⟨.ok 'd', false, ⟨8, 8⟩⟩
    let p : PersistentHandle Char Nat :=
      ⟨type, .reference ⟨.strong, some (.object 1)⟩, .box 0, some (.object 1)⟩
    let interrupted : PersistentHandle.Change Unit Nat := fun _ s =>
      (.error (.raised "gave up"), .reference ⟨.strong, some (.object 5)⟩, s)
    ∃ (l : Losing Unit Char Nat Unit) (p' : PersistentHandle Char Nat) (w : World Unit Char Unit),
      l.Reached ∧ l.live = [p] ∧ p.InSync ∧
      (p.update interrupted).runOn l.world = (.ok (p', .error (.raised "gave up")), w) ∧
      p'.handle = .reference ⟨.strong, some (.object 5)⟩ ∧ p'.registered = some (.object 1) ∧
      ¬ p'.InSync ∧ w.pool.roots = [('d', .object 1)] ∧
      ¬ ∃ descriptor, (descriptor, .object 5) ∈ w.pool.roots := by
  intro type p interrupted
  let start : World Unit Char Unit := ⟨.empty, (), 0, [], ()⟩
  let l : Losing Unit Char Nat Unit :=
    ⟨⟨((PersistentHandle.new type p.handle).runOn start).2, [p]⟩, []⟩
  have hreached : l.Reached := ⟨start, rfl, .single (.kept (.created type p.handle))⟩
  let edited := RefHandle.editAll Hooks.noBarrier ⟨.strong, some (.object 1)⟩
    [.set (some (.object 5))] l.world.collector
  have hchange : interrupted p.handle l.world.collector =
      (.error (.raised "gave up"), .reference edited.1, edited.2) := rfl
  obtain ⟨p', w, hupdate, hhandle, hregistered, hroots, hsync, -, hruns⟩ :=
    interrupted_update_keeps_old_root (p := p) (w := l.world) rfl rfl hchange
  obtain ⟨-, hroot, -⟩ := hruns l [] [] hreached rfl rfl
  refine ⟨l, p', w, hreached, rfl, rfl, hupdate, hhandle, hregistered, ?_, ?_, ?_⟩
  · rw [hsync]
    decide
  · rw [World.pool, hroots]
    rfl
  · rw [hroot (.object 5) rfl]
    decide

end Losing

end TracedHeap
