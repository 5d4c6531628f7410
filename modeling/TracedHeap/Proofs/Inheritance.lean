import TracedHeap.Proofs.Acts
import TracedHeap.Roots.PersistentHandle

/-! # Properties that code has from its parts

Operations on persistent handles are put together from few parts: code that leaves the root
set as it is, and changes of the pool.

* `Act.KeepsRoots`: code that leaves the root set as it is.
* `Act.Inherited`: a property that code has if its parts have it.
* `Act.Inherited.new` and the like: such a property of operations on persistent handles.
-/

namespace TracedHeap

variable {σ D V ω α : Type}

namespace Act

/-- The code leaves the root set as it is. -/
def KeepsRoots (act : Act σ D ω α) : Prop := ∀ w, (act.runOn w).2.roots = w.roots

theorem keepsRoots_pure (a : α) : (pure a : Act σ D ω α).KeepsRoots := fun _ => rfl

theorem keepsRoots_throw (fault : Fault) : (throw fault : Act σ D ω α).KeepsRoots := fun _ => rfl

theorem keepsRoots_raise (fault : Fault) : (raise fault : Act σ D ω α).KeepsRoots := fun _ => rfl

theorem keepsRoots_demand (outcome : Except Fault α) :
    (demand outcome : Act σ D ω α).KeepsRoots := by
  cases outcome with
  | ok a => exact keepsRoots_pure a
  | error fault => exact keepsRoots_raise fault

theorem keepsRoots_ask (question : RootSet D → Except Fault α) :
    (ask question : Act σ D ω α).KeepsRoots := by
  intro w
  rw [runOn_ask]
  cases question w.roots <;> rfl

theorem keepsRoots_onCollector (act : σ → α × σ) : (onCollector act : Act σ D ω α).KeepsRoots :=
  fun _ => rfl

theorem keepsRoots_freshBox : (freshBox : Act σ D ω Nat).KeepsRoots := fun _ => rfl

/-- A property that code has if its parts have it, and that removing a persistent root
has. -/
structure Inherited (Q : (α : Type) → Act σ D ω α → Prop) : Prop where
  keeps : ∀ {α : Type} {act : Act σ D ω α}, act.KeepsRoots → Q α act
  bind : ∀ {α β : Type} {act : Act σ D ω α} {f : α → Act σ D ω β}, Q α act → (∀ a, Q β (f a)) →
    Q β (act >>= f)
  attempt : ∀ {α : Type} {act : Act σ D ω α}, Q α act → Q (Except Fault α) (attempt act)
  unregister : ∀ data, Q Unit (unregister data)

namespace Inherited

variable {Q : (α : Type) → Act σ D ω α → Prop}

theorem unregisterHandle (h : Inherited Q) (p : PersistentHandle D V) : Q Unit p.unregister := by
  unfold PersistentHandle.unregister
  cases p.registered with
  | none => exact h.keeps (keepsRoots_pure ())
  | some data => exact h.unregister data

theorem drop (h : Inherited Q) (p : PersistentHandle D V) : Q Unit p.drop := h.unregisterHandle p

theorem read (h : Inherited Q) (hooks : Hooks σ) (p : PersistentHandle D V) (target : RefHandle) :
    Q _ (p.read hooks target) :=
  h.bind (h.keeps (keepsRoots_onCollector _)) fun _ => h.keeps (keepsRoots_pure _)

variable [BEq D]

theorem registerHandle (h : Inherited Q)
    (hregister : ∀ data descriptor, Q Unit (Act.register data descriptor))
    (p : PersistentHandle D V) : Q Pointer p.register := by
  unfold PersistentHandle.register
  cases p.identity with
  | none => exact h.keeps (keepsRoots_pure none)
  | some data =>
    refine h.bind (h.keeps (keepsRoots_demand _)) fun descriptor => ?_
    have hrest : Q Pointer (do Act.register data descriptor; return some data) :=
      h.bind (hregister data descriptor) fun _ => h.keeps (keepsRoots_pure _)
    split
    · exact h.bind (h.keeps (keepsRoots_raise _)) fun _ => hrest
    · exact hrest

theorem new (h : Inherited Q) (hregister : ∀ data descriptor, Q Unit (Act.register data descriptor))
    (type : TypeInfo D) (handle : Handle V) : Q _ (PersistentHandle.new type handle) := by
  have hbox : Q Address (PersistentHandle.boxAddress type.layout) := by
    unfold PersistentHandle.boxAddress
    split
    · exact h.keeps (keepsRoots_pure _)
    · exact h.bind (h.keeps keepsRoots_freshBox) fun _ => h.keeps (keepsRoots_pure _)
  exact h.bind hbox fun box => h.bind (h.registerHandle hregister _) fun _ =>
    h.keeps (keepsRoots_pure _)

theorem clone (h : Inherited Q)
    (hregister : ∀ data descriptor, Q Unit (Act.register data descriptor)) (hooks : Hooks σ)
    (p : PersistentHandle D V) : Q _ (p.clone hooks) := by
  unfold PersistentHandle.clone
  cases p.handle with
  | value v => exact h.new hregister _ _
  | reference target =>
    exact h.bind (h.keeps (keepsRoots_onCollector _)) fun _ => h.new hregister _ _

theorem update (h : Inherited Q)
    (hregister : ∀ data descriptor, Q Unit (Act.register data descriptor))
    (p : PersistentHandle D V) (change : PersistentHandle.Change σ V) : Q _ (p.update change) := by
  refine h.bind (h.keeps (keepsRoots_onCollector _)) fun result => ?_
  rcases result with ⟨fault | _, handle⟩
  · exact h.keeps (keepsRoots_pure _)
  · refine h.bind (h.attempt (h.registerHandle hregister _)) fun registered => ?_
    cases registered with
    | error fault => exact h.keeps (keepsRoots_pure _)
    | ok registered =>
      exact h.bind (h.attempt (h.unregisterHandle p)) fun _ => h.keeps (keepsRoots_pure _)

end Inherited

end Act

end TracedHeap
