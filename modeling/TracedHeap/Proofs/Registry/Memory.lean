import Mathlib.Data.List.Infix
import TracedHeap.Descriptor.Construction

/-! # Descriptors in memory

What lies in the memory of a descriptor when it has been written completely, and what
its memory is next to all others.

1. **Descriptors**: a `Complete` descriptor can be read through all accessors; a `Ruined`
   one was given up, and leads nowhere.
2. **Writing**: what a composition leaves in memory, whether it ends well or not.
3. **Stores**: reading after a write and after an allocation.
4. **Constructions** at run-time.
5. **Slots**, which are checked against their targets (`Slot.Suits`).
-/

namespace TracedHeap

/-! ## Descriptors -/

namespace Descriptor

/-- The descriptors that a walk comes to next: the target of the array slot, and those
of the other slots. -/
def targets (d : Descriptor) : List DescriptorRef :=
  d.array.descriptor :: (d.slots.take d.slotCount).map Slot.descriptor

/-- Everything was written and can be read. -/
structure Complete (d : Descriptor) : Prop where
  initialized : d.initialized = true
  unpoisoned : d.poisoned = false
  slotCount : d.slotCount? = .ok d.slots.length
  array : d.array? = .ok d.array
  slots : d.slots? = .ok d.slots

/-- The registration failed, and nothing is described any more. -/
structure Ruined (d : Descriptor) : Prop where
  uninitialized : d.initialized = false
  poisoned : d.poisoned = true
  slotCount : d.slotCount = 0
  array : d.array = .empty

theorem complete_sentinel : sentinel.Complete := ⟨rfl, rfl, rfl, rfl, rfl⟩

theorem ruined_poison (d : Descriptor) : d.poison.Ruined := ⟨rfl, rfl, rfl, rfl⟩

theorem targets_sentinel : sentinel.targets = [.boxed] := rfl

theorem Ruined.targets {d : Descriptor} (h : d.Ruined) : d.targets = [.boxed] := by
  rw [Descriptor.targets, h.array, h.slotCount]
  rfl

theorem complete_of_count {d : Descriptor} (hinit : d.initialized = true)
    (hpoison : d.poisoned = false) (hcount : d.slotCount = d.slots.length) : d.Complete := by
  have hslotCount : d.slotCount? = .ok d.slots.length := by
    rw [slotCount?, finished, if_pos hinit, hcount]
  refine ⟨hinit, hpoison, hslotCount, by rw [array?, finished, if_pos hinit], ?_⟩
  rw [slots?, hslotCount]
  simp [bind, Except.bind, pure, Except.pure]

/-! ## Writing -/

/-- The writing of slots changes nothing else. -/
theorem exists_fill_eq (reported : Nat) (slots : List Slot) (written : Nat) (d : Descriptor) :
    ∃ filled, (fill reported slots written d).2 = { d with slots := filled } := by
  induction slots generalizing written d with
  | nil =>
    unfold fill
    split
    · exact ⟨d.slots, rfl⟩
    · exact ⟨d.slots, rfl⟩
  | cons slot rest ih =>
    unfold fill
    split
    · obtain ⟨filled, h⟩ := ih (written + 1) (d.writeSlot written slot)
      exact ⟨filled, h⟩
    · exact ⟨d.slots, rfl⟩

/-- The parts of a descriptor that the writing of slots leaves alone. -/
structure SameFrame (d d' : Descriptor) : Prop where
  array : d'.array = d.array
  initialized : d'.initialized = d.initialized
  poisoned : d'.poisoned = d.poisoned

theorem fill_frame (reported : Nat) (slots : List Slot) (written : Nat) (d : Descriptor) :
    SameFrame d (fill reported slots written d).2 := by
  obtain ⟨filled, hfilled⟩ := exists_fill_eq reported slots written d
  rw [hfilled]
  exact ⟨rfl, rfl, rfl⟩

/-- A writing loop that ends well has written all slots behind those that were there, and
the number of slots is what was announced. -/
theorem fill_ok {reported : Nat} {slots : List Slot} {written : Nat} {d : Descriptor}
    (hwritten : d.slots.length = written) (h : (fill reported slots written d).1 = .ok ()) :
    (fill reported slots written d).2.slots = d.slots ++ slots ∧
      (d.slots ++ slots).length = reported := by
  induction slots generalizing written d with
  | nil =>
    unfold fill at h ⊢
    split at h
    · rename_i hall
      rw [if_pos hall, List.append_nil]
      exact ⟨rfl, hwritten.trans hall⟩
    · cases h
  | cons slot rest ih =>
    unfold fill at h ⊢
    split at h
    · rename_i hroom
      -- the slot lands just behind those that are there
      have hslots : (d.writeSlot written slot).slots = d.slots ++ [slot] := by
        rw [writeSlot, ← hwritten, List.take_length]
      have hnext := ih (by rw [hslots, ← hwritten, List.length_append]; rfl) h
      rw [if_pos hroom]
      rw [hslots, List.append_assoc, List.singleton_append] at hnext
      exact hnext
    · cases h

/-- A writing loop writes all slots if as many were announced. -/
theorem fill_all (slots : List Slot) {written : Nat} {d : Descriptor}
    (hwritten : d.slots.length = written) :
    fill (written + slots.length) slots written d =
      (.ok (), { d with slots := d.slots ++ slots }) := by
  induction slots generalizing written d with
  | nil =>
    rw [fill, List.length_nil, Nat.add_zero, if_pos rfl, List.append_nil]
  | cons slot rest ih =>
    have hslots : (d.writeSlot written slot).slots = d.slots ++ [slot] := by
      rw [writeSlot, ← hwritten, List.take_length]
    have hnext : (d.writeSlot written slot).slots.length = written + 1 := by
      rw [hslots, ← hwritten, List.length_append, List.length_singleton]
    have hcount : written + (slot :: rest).length = written + 1 + rest.length := by
      rw [List.length_cons]
      omega
    have hroom : written < written + 1 + rest.length := by omega
    rw [fill, hcount, if_pos hroom, ih hnext, hslots, List.append_assoc]
    rfl

end Descriptor

/-- The descriptors that a blueprint leads to. -/
def Blueprint.targets (b : Blueprint) : List DescriptorRef :=
  b.array.descriptor :: b.source.slots.map Slot.descriptor

namespace Descriptor

/-- The header of a composition, before any slot is written. -/
def header (d : Descriptor) (b : Blueprint) : Descriptor :=
  { d.writeHeader b.size b.hasArray with array := b.array }

/-- A composition is refused at once, or writes the header and then the slots. -/
theorem compose_cases (d : Descriptor) (address : Nat) (b : Blueprint) :
    (∃ fault, d.compose address b = (.error fault, d)) ∨
    d.compose address b =
      match fill b.source.reported b.source.slots 0 (d.header b) with
      | (.error fault, memory) => (.error fault, memory)
      | (.ok (), memory) =>
        (.ok (), { memory with slotCount := b.source.reported, initialized := true }) := by
  unfold compose
  split
  · exact Or.inl ⟨_, rfl⟩
  · split
    · exact Or.inl ⟨_, rfl⟩
    · exact Or.inr rfl

/-- A composition that ends well leaves a complete descriptor, which leads to what its
blueprint leads to. -/
theorem compose_ok {d : Descriptor} {address : Nat} {b : Blueprint} (hslots : d.slots = [])
    (h : (d.compose address b).1 = .ok ()) :
    (d.compose address b).2.Complete ∧ (d.compose address b).2.targets = b.targets := by
  rcases compose_cases d address b with ⟨fault, hrefused⟩ | hwritten
  · rw [hrefused] at h
    cases h
  have hfill := @fill_ok b.source.reported b.source.slots 0 (d.header b)
    (congrArg List.length hslots)
  have hframe := fill_frame b.source.reported b.source.slots 0 (d.header b)
  rcases hrun : fill b.source.reported b.source.slots 0 (d.header b) with ⟨fault | _, memory⟩
  · rw [hwritten, hrun] at h
    cases h
  rw [hrun] at hfill hframe
  -- no slot was there before, so that all of them are those of the blueprint
  obtain ⟨hall, hcount⟩ := hfill rfl
  have hempty : (d.header b).slots = [] := hslots
  rw [hempty, List.nil_append] at hall hcount
  rw [hwritten, hrun]
  constructor
  · refine complete_of_count rfl hframe.poisoned ?_
    show b.source.reported = memory.slots.length
    rw [hall, hcount]
  · show memory.array.descriptor :: (memory.slots.take b.source.reported).map _ = _
    rw [hall, ← hcount, List.take_length, hframe.array]
    rfl

/-- A composition from an honest source of slots is refused, or writes all that it was
given. -/
theorem compose_ofList {d : Descriptor} {b : Blueprint} {slots : List Slot}
    (hblank : d.slots = []) (hsource : b.source = .ofList slots) :
    ((b.size = 0 ∧ b.hasArray = false ∧ slots ≠ []) ∧ ∃ fault, d.compose 0 b = (.error fault, d)) ∨
    ¬ (b.size = 0 ∧ b.hasArray = false ∧ slots ≠ []) ∧ d.compose 0 b =
      (.ok (), { d.header b with slotCount := slots.length, slots, initialized := true }) := by
  have hreported : b.source.reported = slots.length := congrArg (·.reported) hsource
  have hall : b.source.slots = slots := congrArg (·.slots) hsource
  have hguard : (b.size == 0 && !b.hasArray && b.source.reported != 0) = true ↔
      b.size = 0 ∧ b.hasArray = false ∧ slots ≠ [] := by
    simp [hreported, and_assoc]
  have haligned : ¬ (0 % alignment != 0) = true := by decide
  by_cases hempty : b.size = 0 ∧ b.hasArray = false ∧ slots ≠ []
  · left
    refine ⟨hempty, .failed .slotsOfEmptyObject, ?_⟩
    rw [compose, if_pos (hguard.2 hempty)]
  · right
    refine ⟨hempty, ?_⟩
    have hfill := fill_all slots (d := d.header b) (congrArg List.length hblank)
    have hslots : (d.header b).slots = [] := hblank
    rw [List.length_nil, Nat.zero_add, hslots, List.nil_append] at hfill
    rw [compose, if_neg fun h => hempty (hguard.1 h), if_neg haligned, hreported, hall]
    exact congrArg (fun made => match made with
      | (.error fault, memory) => (Except.error fault, memory)
      | (.ok (), memory) =>
        (.ok (), { memory with slotCount := slots.length, initialized := true })) hfill

/-- A composition that fails once the header was written leaves the memory unmarked, whatever was
there before. -/
theorem uninitialized_of_written {d : Descriptor} {address : Nat} {b : Blueprint} {fault : Fault}
    (hwritten : d.compose address b =
      match fill b.source.reported b.source.slots 0 (d.header b) with
      | (.error fault, memory) => (.error fault, memory)
      | (.ok (), memory) =>
        (.ok (), { memory with slotCount := b.source.reported, initialized := true }))
    (h : (d.compose address b).1 = .error fault) :
    (d.compose address b).2.initialized = false := by
  have hframe := fill_frame b.source.reported b.source.slots 0 (d.header b)
  rcases hrun : fill b.source.reported b.source.slots 0 (d.header b) with ⟨fault | _, memory⟩
  · rw [hrun] at hframe
    rw [hwritten, hrun]
    exact hframe.initialized
  · rw [hwritten, hrun] at h
    cases h

/-- A composition that fails leaves the descriptor unfinished. -/
theorem compose_error {d : Descriptor} {address : Nat} {b : Blueprint} {fault : Fault}
    (hinit : d.initialized = false) (h : (d.compose address b).1 = .error fault) :
    (d.compose address b).2.initialized = false := by
  rcases compose_cases d address b with ⟨_, hrefused⟩ | hwritten
  · rw [hrefused]
    exact hinit
  · exact uninitialized_of_written hwritten h

end Descriptor

/-! ## Stores -/

namespace Store

variable {s : Store} {d e : DescriptorRef} {memory : Descriptor}

/-- One descriptor refers to another, by its array slot or one of its slots. -/
def Leads (s : Store) (d e : DescriptorRef) : Prop := e ∈ (s.get d).targets

instance (s : Store) (d e : DescriptorRef) : Decidable (s.Leads d e) :=
  inferInstanceAs (Decidable (e ∈ (s.get d).targets))

/-- The address was handed out. -/
def InBounds (s : Store) (d : DescriptorRef) : Prop := d.index < s.descriptors.length

theorem get_of_getElem? (h : s.descriptors[d.index]? = some memory) : s.get d = memory := by
  rw [get, List.getD_eq_getElem?_getD, h]
  rfl

/-- What was never handed out reads as the sentinel. -/
theorem get_of_not_inBounds (h : ¬ s.InBounds d) : s.get d = .sentinel := by
  rw [get, List.getD_eq_getElem?_getD, List.getElem?_eq_none (Nat.le_of_not_lt h)]
  rfl

/-- A longer store reads the same at the addresses of a shorter one. -/
theorem get_of_prefix {s' : Store} (h : s.descriptors <+: s'.descriptors) (hd : s.InBounds d) :
    s'.get d = s.get d := by
  rcases h with ⟨rest, hrest⟩
  rw [get, get, List.getD_eq_getElem?_getD, List.getD_eq_getElem?_getD, ← hrest,
    List.getElem?_append_left hd]

theorem InBounds.of_prefix {s' : Store} (hd : s.InBounds d)
    (h : s.descriptors <+: s'.descriptors) : s'.InBounds d :=
  Nat.lt_of_lt_of_le hd h.length_le

theorem get_set_self (hd : s.InBounds d) : (s.set d memory).get d = memory := by
  refine get_of_getElem? ?_
  rw [set, List.getElem?_set_self hd]

theorem get_set_ne (h : e ≠ d) : (s.set d memory).get e = s.get e := by
  have hindex : d.index ≠ e.index := by
    intro hsame
    apply h
    rcases d with ⟨i⟩
    rcases e with ⟨j⟩
    exact congrArg DescriptorRef.mk hsame.symm
  rw [get, get, set, List.getD_eq_getElem?_getD, List.getD_eq_getElem?_getD,
    List.getElem?_set_ne hindex]

theorem inBounds_set : (s.set d memory).InBounds e ↔ s.InBounds e := by
  rw [InBounds, InBounds, set, List.length_set]

theorem set_set (memory' : Descriptor) : (s.set d memory).set d memory' = s.set d memory' := by
  rw [set, set, set, List.set_set]

/-- Overwriting a descriptor with what is stored there changes nothing. -/
theorem set_get (s : Store) (d : DescriptorRef) : s.set d (s.get d) = s := by
  rcases s with ⟨descriptors⟩
  rw [set, get, List.getD_eq_getElem?_getD]
  by_cases hd : d.index < descriptors.length
  · rw [List.getElem?_eq_getElem hd, Option.getD_some, List.set_getElem_self]
  · rw [List.set_eq_of_length_le (Nat.le_of_not_lt hd)]

/-- Overwriting what was allocated later leaves the memory of before alone. -/
theorem prefix_set {earlier : List Descriptor} (h : earlier <+: s.descriptors)
    (hlater : earlier.length ≤ d.index) : earlier <+: (s.set d memory).descriptors := by
  rcases h with ⟨rest, hrest⟩
  rw [set, ← hrest, List.set_append_right _ _ hlater]
  exact List.prefix_append _ _

theorem prefix_allocate : s.descriptors <+: (s.allocate memory).descriptors :=
  List.prefix_append _ _

theorem get_allocate_fresh : (s.allocate memory).get s.fresh = memory := by
  refine get_of_getElem? ?_
  rw [allocate, fresh, List.getElem?_concat_length]

theorem inBounds_allocate_fresh : (s.allocate memory).InBounds s.fresh := by
  rw [InBounds, allocate, List.length_append]
  exact Nat.lt_succ_self _

theorem not_inBounds_fresh : ¬ s.InBounds s.fresh := Nat.lt_irrefl _

/-- After an allocation the addresses are those of before and the fresh one. -/
theorem inBounds_allocate (h : (s.allocate memory).InBounds d) : s.InBounds d ∨ d = s.fresh := by
  rw [InBounds, allocate, List.length_append, List.length_singleton] at h
  rcases Nat.lt_or_eq_of_le (Nat.le_of_lt_succ h) with hlt | heq
  · exact Or.inl hlt
  · right
    rcases d with ⟨i⟩
    exact congrArg DescriptorRef.mk heq

/-- A descriptor that is composed in fresh memory is complete if its address is the result,
and unfinished if there is a fault instead. -/
theorem constructAt_cases (s : Store) (address : Nat) (b : Blueprint) :
    ((s.constructAt address b).1 = .ok (some s.fresh) ∧
      ((Descriptor.blank b.source.reported).compose address b).2.Complete ∧
        ((Descriptor.blank b.source.reported).compose address b).2.targets = b.targets) ∨
    (∃ fault, (s.constructAt address b).1 = .error fault) ∧
      ((Descriptor.blank b.source.reported).compose address b).2.initialized = false := by
  cases hmade : ((Descriptor.blank b.source.reported).compose address b).1 with
  | error fault =>
    right
    have hfault : (s.constructAt address b).1 = .error fault := by
      rw [constructAt, hmade]
      rfl
    exact ⟨⟨fault, hfault⟩, Descriptor.compose_error rfl hmade⟩
  | ok _ =>
    left
    have hresult : (s.constructAt address b).1 = .ok (some s.fresh) := by
      rw [constructAt, hmade]
      rfl
    exact ⟨hresult, Descriptor.compose_ok rfl hmade⟩

/-- What a construction at run-time comes to: nothing is stored, or one more descriptor.
That is complete if the construction has a result, and unfinished otherwise. -/
theorem construct_cases (s : Store) (placement : Placement) (b : Blueprint) :
    ((s.construct placement b).store = s ∧ (s.construct placement b).result = .ok none) ∨
    ∃ memory, (s.construct placement b).store = s.allocate memory ∧
      (((s.construct placement b).result = .ok (some s.fresh) ∧ memory.Complete ∧
          memory.targets = b.targets) ∨
        (∃ fault, (s.construct placement b).result = .error fault) ∧
          memory.initialized = false) := by
  cases placement with
  | memory address =>
    right
    exact ⟨_, rfl, s.constructAt_cases address b⟩
  | collected =>
    unfold construct
    cases Descriptor.layout? b.source.reported with
    | none =>
      -- no memory is large enough for so many slots
      left
      exact ⟨rfl, rfl⟩
    | some layout =>
      right
      exact ⟨_, rfl, s.constructAt_cases 0 b⟩

end Store

/-! ## Slots -/

namespace Slot

/-- Neither memory that carries its own descriptor nor an object that ends in an array is
stored by value. -/
structure Suits (slot : Slot) (store : Store) : Prop where
  boxed : slot.descriptor = .boxed → slot.discipline ≠ .value
  array : slot.discipline = .value → (store.get slot.descriptor).hasArray = false

/-- A slot is created unless it does not suit its target. -/
theorem make_cases (store : Store) (target : Option DescriptorRef) (discipline : Discipline)
    (offset : Nat) :
    ((⟨target, discipline, offset⟩ : Slot).Suits store ∧
      make store target discipline offset = .ok ⟨some (target.getD .boxed), discipline, offset⟩) ∨
    ¬ (⟨target, discipline, offset⟩ : Slot).Suits store ∧
      make store target discipline offset = .error (.failed
        (if target.getD .boxed = .boxed then .boxedByValue else .arrayByValue)) := by
  have hdescriptor : (⟨target, discipline, offset⟩ : Slot).descriptor = target.getD .boxed := rfl
  unfold make
  simp only [DescriptorRef.isBoxed]
  by_cases hvalue : discipline = .value
  · by_cases hboxed : target.getD .boxed = .boxed
    · right
      refine ⟨fun hsuits => hsuits.boxed hboxed hvalue, ?_⟩
      simp [hboxed, hvalue]
    · cases harray : (store.get (target.getD .boxed)).hasArray with
      | false =>
        left
        refine ⟨⟨fun h => absurd h hboxed, fun _ => harray⟩, ?_⟩
        simp [hboxed, hvalue]
      | true =>
        right
        refine ⟨fun hsuits => ?_, by simp [hboxed, hvalue]⟩
        have hno := hsuits.array hvalue
        rw [hdescriptor, harray] at hno
        cases hno
  · left
    refine ⟨⟨fun _ => hvalue, fun h => absurd h hvalue⟩, ?_⟩
    simp [hvalue]

theorem not_suits_iff {slot : Slot} {store : Store} :
    ¬ slot.Suits store ↔ slot.discipline = .value ∧
      (slot.descriptor = .boxed ∨ (store.get slot.descriptor).hasArray = true) := by
  constructor
  · intro hunfit
    by_contra hfit
    rw [not_and, not_or] at hfit
    refine hunfit ⟨fun hboxed hvalue => (hfit hvalue).1 hboxed, fun hvalue => ?_⟩
    exact Bool.eq_false_iff.2 (hfit hvalue).2
  · rintro ⟨hvalue, hboxed | harray⟩ hsuits
    · exact hsuits.boxed hboxed hvalue
    · rw [hsuits.array hvalue] at harray
      cases harray

theorem suits_of_ne_value {slot : Slot} (h : slot.discipline ≠ .value) (store : Store) :
    slot.Suits store :=
  ⟨fun _ => h, fun hvalue => absurd hvalue h⟩

/-- Only the header of the target matters. -/
theorem Suits.of_header {slot : Slot} {store store' : Store} (h : slot.Suits store)
    (hheader : (store'.get slot.descriptor).hasArray = (store.get slot.descriptor).hasArray) :
    slot.Suits store' :=
  ⟨h.boxed, fun hvalue => hheader.trans (h.array hvalue)⟩

theorem make_congr {store store' : Store} {target : Option DescriptorRef}
    (h : (store'.get (target.getD .boxed)).hasArray = (store.get (target.getD .boxed)).hasArray)
    (discipline : Discipline) (offset : Nat) :
    make store' target discipline offset = make store target discipline offset := by
  simp only [make, h]

end Slot

end TracedHeap
