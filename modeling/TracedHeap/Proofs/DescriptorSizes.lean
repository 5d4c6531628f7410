import TracedHeap.Proofs.Registry.SlotWrites

/-! # Sizes of descriptors and their limits

The size of a descriptor grows with its number of slots, and there are three ways to ask for
it.  They compute the same number as long as they answer, and give up at three different
numbers of slots: where the size is no longer a word, and, for layouts, where it passes half
of the address space.

1. **Words**: a product or a sum either fits a word or overflows.
2. **Sizes**: all that can come of the arithmetic, said once (`memorySize_cases`).
3. **Slots**: the bytes of each slot lie in memory of that layout.

The main statement is `sizes_agree_up_to_their_limits`.
-/

namespace TracedHeap

/-! ## Words -/

namespace Word

theorem mul_cases (a b : Nat) :
    (a * b < bound ∧ mul a b = .ok (a * b) ∧ mul? a b = some (a * b)) ∨
    (bound ≤ a * b ∧ mul a b = .error .multiplyOverflow ∧ mul? a b = none) := by
  unfold mul mul?
  by_cases hfits : a * b < bound
  · rw [if_pos hfits]
    exact Or.inl ⟨hfits, rfl, rfl⟩
  · rw [if_neg hfits]
    exact Or.inr ⟨Nat.le_of_not_lt hfits, rfl, rfl⟩

theorem add_cases (a b : Nat) :
    (a + b < bound ∧ add a b = .ok (a + b) ∧ add? a b = some (a + b)) ∨
    (bound ≤ a + b ∧ add a b = .error .addOverflow ∧ add? a b = none) := by
  unfold add add?
  by_cases hfits : a + b < bound
  · rw [if_pos hfits]
    exact Or.inl ⟨hfits, rfl, rfl⟩
  · rw [if_neg hfits]
    exact Or.inr ⟨Nat.le_of_not_lt hfits, rfl, rfl⟩

end Word

namespace Descriptor

/-! ## Sizes -/

/-- What comes of the arithmetic: the product overflows, or only the sum does, or there is a
size.  It is where one more slot would start. -/
theorem memorySize_cases (slots : Nat) :
    (Word.bound ≤ 24 * slots ∧
      memorySize slots = .error .multiplyOverflow ∧ memorySize? slots = none) ∨
    ((24 * slots < Word.bound ∧ Word.bound ≤ slotOffset slots) ∧
      memorySize slots = .error .addOverflow ∧ memorySize? slots = none) ∨
    (slotOffset slots < Word.bound ∧
      memorySize slots = .ok (slotOffset slots) ∧ memorySize? slots = some (slotOffset slots)) := by
  have hproduct : slots * slotSize = 24 * slots := Nat.mul_comm slots 24
  unfold memorySize memorySize?
  rcases Word.mul_cases slots slotSize with ⟨hfits, hmul, hmul?⟩ | ⟨hover, hmul, hmul?⟩
  · rw [hmul, hmul?, hproduct]
    rw [hproduct] at hfits
    right
    rcases Word.add_cases headerSize (24 * slots) with ⟨hfits', hadd⟩ | ⟨hover', hadd⟩
    · exact Or.inr ⟨hfits', hadd⟩
    · exact Or.inl ⟨⟨hfits, hover'⟩, hadd⟩
  · rw [hmul, hmul?]
    rw [hproduct] at hover
    exact Or.inl ⟨hover, rfl, rfl⟩

theorem memorySize?_eq (slots : Nat) :
    memorySize? slots =
      if slotOffset slots < Word.bound then some (slotOffset slots) else none := by
  rcases memorySize_cases slots with ⟨hover, -, hnone⟩ | ⟨⟨-, hover⟩, -, hnone⟩ | ⟨hfits, -, hsome⟩
  · have hmore : Word.bound ≤ slotOffset slots := Nat.le_trans hover (Nat.le_add_left _ _)
    rw [hnone, if_neg (Nat.not_lt.2 hmore)]
  · rw [hnone, if_neg (Nat.not_lt.2 hover)]
  · rw [hsome, if_pos hfits]

/-- A size has a layout as long as it does not pass half of the address space, which is far
below the sizes that are no words. -/
theorem layout?_eq_some_iff (slots : Nat) (layout : Layout) :
    layout? slots = some layout ↔
      slotOffset slots ≤ Layout.maxSize alignment ∧ layout = ⟨slotOffset slots, alignment⟩ := by
  have hbelow : Layout.maxSize alignment < Word.bound := by decide
  unfold layout?
  rw [memorySize?_eq]
  by_cases hfits : slotOffset slots < Word.bound
  · rw [if_pos hfits, Option.bind_eq_bind, Option.bind_some, Layout.ofSizeAlign?]
    by_cases hsmall : slotOffset slots ≤ Layout.maxSize alignment
    · rw [if_pos hsmall, Option.some.injEq]
      exact ⟨fun h => ⟨hsmall, h.symm⟩, fun h => h.2.symm⟩
    · rw [if_neg hsmall]
      exact ⟨fun h => (nomatch h), fun h => absurd h.1 hsmall⟩
  · rw [if_neg hfits]
    exact ⟨fun h => (nomatch h), fun h => absurd (Nat.lt_of_le_of_lt h.1 hbelow) hfits⟩

/-! ## Slots -/

/-- A slot ends before any later one starts. -/
theorem slotEnd_le_slotOffset {number later : Nat} (h : number < later) :
    slotOffset number + slotSize ≤ slotOffset later := by
  show 48 + 24 * number + 24 ≤ 48 + 24 * later
  omega

/-- Sizes agree up to their limits.  For any number of slots:

* `memorySize?` answers with 48 bytes and 24 for each slot, if that is a word;
* `memorySize` answers with the same number in the same cases, and otherwise tells which step
  of the arithmetic overflows, the product or only the sum;
* `layout?` answers in fewer cases, up to half of the address space less what rounding up to
  the alignment may take, with the same size and an alignment of 8;
* in memory of such a layout, each slot takes up 24 bytes behind the 48 of the header and the
  slots before it, and a descriptor that is written there has exactly these slots written. -/
theorem sizes_agree_up_to_their_limits (slots : Nat) :
    memorySize? slots =
      (if 48 + 24 * slots < 0x10000000000000000 then some (48 + 24 * slots) else none) ∧
    (∀ size, memorySize slots = .ok size ↔ memorySize? slots = some size) ∧
    (memorySize slots = .error .multiplyOverflow ↔ 0x10000000000000000 ≤ 24 * slots) ∧
    (memorySize slots = .error .addOverflow ↔
      24 * slots < 0x10000000000000000 ∧ 0x10000000000000000 ≤ 48 + 24 * slots) ∧
    (∀ fault, memorySize slots = .error fault →
      fault = .multiplyOverflow ∨ fault = .addOverflow) ∧
    (∀ layout, layout? slots = some layout ↔
      48 + 24 * slots ≤ 0x8000000000000000 - 1 - 7 ∧ layout = ⟨48 + 24 * slots, 8⟩) ∧
    (memorySize? slots = none → layout? slots = none) ∧
    ∀ layout, layout? slots = some layout →
      (∀ i < slots, slotOffset i = 48 + 24 * i ∧ slotOffset i + slotSize = 72 + 24 * i ∧
        72 + 24 * i ≤ layout.size) ∧
      (∀ i j, i < j → slotOffset i + slotSize ≤ slotOffset j) ∧
      ∀ (d : Descriptor) (address : Nat) (b : Blueprint), address % layout.align = 0 →
        b.source.reported = slots → b.source.slots.length = slots → ¬ b.Hollow →
          (d.composeNoted address b).2.numbers = List.range slots := by
  have hsize : slotOffset slots = 48 + 24 * slots := rfl
  have hbound : Word.bound = 0x10000000000000000 := rfl
  have hlayout := layout?_eq_some_iff slots
  refine ⟨memorySize?_eq slots, ?_, ?_, ?_, ?_, hlayout, ?_, ?_⟩
  · intro size
    rcases memorySize_cases slots with ⟨-, h, h'⟩ | ⟨-, h, h'⟩ | ⟨-, h, h'⟩ <;> simp [h, h']
  · rcases memorySize_cases slots with ⟨hover, h, -⟩ | ⟨⟨hfits, -⟩, h, -⟩ | ⟨hfits, h, -⟩ <;>
      simp [h] <;> omega
  · rcases memorySize_cases slots with ⟨hover, h, -⟩ | ⟨⟨hfits, hover⟩, h, -⟩ | ⟨hfits, h, -⟩ <;>
      simp [h] <;> omega
  · intro fault hfault
    rcases memorySize_cases slots with ⟨-, h, -⟩ | ⟨-, h, -⟩ | ⟨-, h, -⟩ <;> rw [h] at hfault <;>
      cases hfault
    · exact Or.inl rfl
    · exact Or.inr rfl
  · intro hnone
    unfold layout?
    rw [hnone]
    rfl
  · intro layout hsome
    obtain ⟨-, rfl⟩ := (hlayout layout).1 hsome
    refine ⟨fun i hi => ⟨rfl, ?_, ?_⟩, fun i j hij => slotEnd_le_slotOffset hij, ?_⟩
    · show 48 + 24 * i + 24 = 72 + 24 * i
      omega
    · have hinside : 48 + 24 * i + 24 ≤ slotOffset slots := slotEnd_le_slotOffset hi
      show 72 + 24 * i ≤ slotOffset slots
      omega
    · intro d address b haligned hreported hlength hsolid
      rw [(d.composeNoted_of_not_hollow hsolid haligned).2, hreported, hlength, Nat.min_self]

/-- The limits are three different ones: with these numbers of slots there is a layout, a size
without a layout, a sum that overflows, and a product that does. -/
theorem limits_of_sizes_differ :
    layout? 384307168202282323 = some ⟨9223372036854775800, 8⟩ ∧
    layout? 384307168202282324 = none ∧
    memorySize 384307168202282324 = .ok 9223372036854775824 ∧
    memorySize 768614336404564648 = .ok 18446744073709551600 ∧
    memorySize 768614336404564649 = .error .addOverflow ∧
    memorySize 768614336404564650 = .error .addOverflow ∧
    memorySize 768614336404564651 = .error .multiplyOverflow := by
  have hsize {slots size : Nat} (h : memorySize? slots = some size) : memorySize slots = .ok size :=
    ((sizes_agree_up_to_their_limits slots).2.1 size).2 h
  have hsum {slots : Nat} (h : 24 * slots < 0x10000000000000000)
      (h' : 0x10000000000000000 ≤ 48 + 24 * slots) : memorySize slots = .error .addOverflow :=
    (sizes_agree_up_to_their_limits slots).2.2.2.1.2 ⟨h, h'⟩
  have hproduct {slots : Nat} (h : 0x10000000000000000 ≤ 24 * slots) :
      memorySize slots = .error .multiplyOverflow :=
    (sizes_agree_up_to_their_limits slots).2.2.1.2 h
  have hlayout {slots : Nat} (layout : Layout) :=
    (sizes_agree_up_to_their_limits slots).2.2.2.2.2.1 layout
  refine ⟨(hlayout _).2 ⟨by decide, by decide⟩, ?_, hsize rfl, hsize rfl,
    hsum (by decide) (by decide), hsum (by decide) (by decide), hproduct (by decide)⟩
  refine Option.eq_none_iff_forall_ne_some.2 fun layout hsome => ?_
  exact absurd ((hlayout layout).1 hsome).1 (by decide)

end Descriptor

end TracedHeap
