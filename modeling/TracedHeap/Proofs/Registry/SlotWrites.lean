import TracedHeap.Proofs.Registry.Memory

/-! # Which slots are written

The memory of a descriptor is sized by the number of slots that their source reports, and the
slots are written one after the other as they arrive.  The source may report another number
than it has.  Here the writing loop is run beside a list of the slots that it writes, which
does not change what it does.

1. **Noted writes**: the loop and the composition with the numbers of the slots that they
   write (`fillNoted`, `composeNoted`).
2. **Numbers**: which slots the loop writes, and how it ends.
3. **Bounds**: the bytes of a slot that is written lie in the memory that was sized.
4. **Compositions**: all of this for any memory and any source (`Descriptor.Counts`).
-/

namespace TracedHeap

/-- A descriptor without size and without an array that is to have slots. -/
structure Blueprint.Hollow (b : Blueprint) : Prop where
  size : b.size = 0
  hasArray : b.hasArray = false
  reported : b.source.reported ≠ 0

theorem Blueprint.not_hollow_iff {b : Blueprint} :
    ¬ b.Hollow ↔ b.size ≠ 0 ∨ b.hasArray = true ∨ b.source.reported = 0 := by
  constructor
  · intro h
    by_contra hno
    simp only [not_or, ne_eq, Decidable.not_not, Bool.not_eq_true] at hno
    exact h ⟨hno.1, hno.2.1, hno.2.2⟩
  · rintro (hsize | harray | hnone) h
    · exact hsize h.size
    · rw [h.hasArray] at harray
      cases harray
    · exact h.reported hnone

namespace Descriptor

/-! ## Noted writes -/

/-- The memory of a descriptor, and a note of the slots that were written to it. -/
structure Noted where
  memory : Descriptor
  /-- The numbers of the slots, in the order in which they were written. -/
  numbers : List Nat

/-- Writes a slot, and notes its number. -/
def Noted.writeSlot (d : Noted) (number : Nat) (slot : Slot) : Noted :=
  ⟨d.memory.writeSlot number slot, d.numbers ++ [number]⟩

/-- The writing loop, with notes. -/
def fillNoted (reported : Nat) : List Slot → Nat → Noted → Except Fault Unit × Noted
  | [], written, d =>
    if written = reported then (.ok (), d)
    else (.error (.failed .fewerSlotsThanReported), d)
  | slot :: rest, written, d =>
    if written < reported then fillNoted reported rest (written + 1) (d.writeSlot written slot)
    else (.error (.failed .moreSlotsThanReported), d)

/-- The writing of a whole descriptor, with notes. -/
def composeNoted (d : Descriptor) (address : Nat) (b : Blueprint) : Except Fault Unit × Noted :=
  if b.size == 0 && !b.hasArray && b.source.reported != 0 then
    (.error (.failed .slotsOfEmptyObject), ⟨d, []⟩)
  else if address % alignment != 0 then
    (.error (.failed .misaligned), ⟨d, []⟩)
  else
    let d := { d.writeHeader b.size b.hasArray with array := b.array }
    match fillNoted b.source.reported b.source.slots 0 ⟨d, []⟩ with
    | (.error f, d) => (.error f, d)
    | (.ok (), d) =>
      (.ok (), { d with
        memory := { d.memory with slotCount := b.source.reported, initialized := true } })

/-- What was written is what is written without notes. -/
theorem fillNoted_erase (reported : Nat) (slots : List Slot) (written : Nat) (d : Noted) :
    Prod.map id Noted.memory (fillNoted reported slots written d) =
      fill reported slots written d.memory := by
  induction slots generalizing written d with
  | nil =>
    unfold fillNoted fill
    split <;> rfl
  | cons slot rest ih =>
    unfold fillNoted fill
    split
    · exact ih (written + 1) (d.writeSlot written slot)
    · rfl

theorem composeNoted_erase (d : Descriptor) (address : Nat) (b : Blueprint) :
    Prod.map id Noted.memory (d.composeNoted address b) = d.compose address b := by
  unfold composeNoted compose
  split
  · rfl
  · split
    · rfl
    · simp only
      rw [← fillNoted_erase b.source.reported b.source.slots 0 ⟨_, []⟩]
      rcases fillNoted b.source.reported b.source.slots 0 ⟨_, []⟩ with ⟨fault | _, noted⟩ <;> rfl

/-! ## Numbers -/

/-- The loop writes the slots in order, as many as were announced and have arrived. -/
theorem numbers_fillNoted (reported : Nat) (slots : List Slot) (written : Nat) (d : Noted) :
    (fillNoted reported slots written d).2.numbers =
      d.numbers ++ List.range' written (min (reported - written) slots.length) := by
  induction slots generalizing written d with
  | nil =>
    unfold fillNoted
    split <;> simp
  | cons slot rest ih =>
    unfold fillNoted
    split
    · rename_i hroom
      have hcount : min (reported - written) (slot :: rest).length =
          min (reported - (written + 1)) rest.length + 1 := by
        rw [List.length_cons]
        omega
      rw [ih, hcount, List.range'_succ, Noted.writeSlot, List.append_assoc]
      rfl
    · rename_i hfull
      have hnone : reported - written = 0 := by omega
      simp [hnone]

/-- The loop ends well exactly if as many slots arrive as were announced, and otherwise with
the fault that tells which there were more of. -/
theorem fill_outcome (reported : Nat) (slots : List Slot) {written : Nat} (d : Descriptor)
    (hwritten : written ≤ reported) :
    (fill reported slots written d).1 =
      match compare (written + slots.length) reported with
      | .lt => .error (.failed .fewerSlotsThanReported)
      | .eq => .ok ()
      | .gt => .error (.failed .moreSlotsThanReported) := by
  induction slots generalizing written d with
  | nil =>
    unfold fill
    rcases Nat.lt_or_eq_of_le hwritten with hless | rfl
    · rw [if_neg (Nat.ne_of_lt hless), List.length_nil, Nat.add_zero, Nat.compare_eq_lt.2 hless]
    · rw [if_pos rfl, List.length_nil, Nat.add_zero, Nat.compare_eq_eq.2 rfl]
  | cons slot rest ih =>
    unfold fill
    have hcount : written + (slot :: rest).length = written + 1 + rest.length := by
      rw [List.length_cons]
      omega
    split
    · rename_i hroom
      rw [ih _ hroom, hcount]
    · rename_i hfull
      have hmore : reported < written + 1 + rest.length := by omega
      rw [hcount, Nat.compare_eq_gt.2 hmore]

/-! ## Bounds -/

/-- The size of memory, where there is one, is that of a header and of the slots. -/
theorem memorySize_eq_ok {slots size : Nat} (h : memorySize slots = .ok size) :
    size = headerSize + slotSize * slots := by
  obtain ⟨bytes, hmul, hadd⟩ := except_bind_eq_ok_iff.1 h
  have hbytes : bytes = slots * slotSize := by
    unfold Word.mul Word.mul? at hmul
    by_cases hfits : slots * slotSize < Word.bound
    · rw [if_pos hfits] at hmul
      exact (Except.ok.inj hmul).symm
    · rw [if_neg hfits] at hmul
      cases hmul
  rw [(Word.add_eq_ok_iff.1 hadd).2, hbytes, Nat.mul_comm]

/-- The bytes of a slot lie in memory for more slots. -/
theorem slotEnd_le {number slots size : Nat} (h : number < slots)
    (hsize : memorySize slots = .ok size) : slotOffset number + slotSize ≤ size := by
  rw [memorySize_eq_ok hsize, slotOffset, Nat.add_assoc]
  have hstep : slotSize * number + slotSize = slotSize * (number + 1) := by
    rw [Nat.mul_add, Nat.mul_one]
  rw [hstep]
  exact Nat.add_le_add_left (Nat.mul_le_mul_left _ h) _

/-! ## Compositions -/

/-- What a composition at an aligned address comes to, by the number of slots that its source
reports and the number of slots that it has. -/
structure Counts (d : Descriptor) (address : Nat) (b : Blueprint) : Prop where
  /-- The notes change nothing. -/
  erase : Prod.map id Noted.memory (d.composeNoted address b) = d.compose address b
  /-- Slots are only written that were reported and have arrived. -/
  written : ∀ i ∈ (d.composeNoted address b).2.numbers,
    i < min b.source.reported b.source.slots.length
  /-- So all that is written lies in memory of the size for the reported number. -/
  inside : ∀ size, memorySize b.source.reported = .ok size →
    ∀ i ∈ (d.composeNoted address b).2.numbers, slotOffset i + slotSize ≤ size
  returns : (d.compose address b).1 = .ok () ↔
    b.source.slots.length = b.source.reported ∧
      (b.size ≠ 0 ∨ b.hasArray = true ∨ b.source.reported = 0)
  /-- Slots that nothing is left for are refused before anything is written. -/
  hollow : b.Hollow → d.composeNoted address b = (.error (.failed .slotsOfEmptyObject), ⟨d, []⟩)
  more : ¬ b.Hollow → b.source.reported < b.source.slots.length →
    (d.compose address b).1 = .error (.failed .moreSlotsThanReported) ∧
      (d.composeNoted address b).2.numbers = List.range b.source.reported
  fewer : ¬ b.Hollow → b.source.slots.length < b.source.reported →
    (d.compose address b).1 = .error (.failed .fewerSlotsThanReported) ∧
      (d.composeNoted address b).2.numbers = List.range b.source.slots.length
  /-- A composition that fails does not mark the memory.  What was marked before only stays so if
  the slots are refused, since then the header was not written either. -/
  marked_iff : ∀ fault, (d.compose address b).1 = .error fault →
    ((d.compose address b).2.initialized = true ↔ b.Hollow ∧ d.initialized = true)

/-- The check for slots of nothing. -/
theorem hollow_iff (b : Blueprint) :
    (b.size == 0 && !b.hasArray && b.source.reported != 0) = true ↔ b.Hollow := by
  simp only [Bool.and_eq_true, beq_iff_eq, Bool.not_eq_true', bne_iff_ne, and_assoc]
  exact ⟨fun ⟨h, h', h''⟩ => ⟨h, h', h''⟩, fun h => ⟨h.size, h.hasArray, h.reported⟩⟩

theorem composeNoted_of_hollow (d : Descriptor) (address : Nat) {b : Blueprint} (h : b.Hollow) :
    d.composeNoted address b = (.error (.failed .slotsOfEmptyObject), ⟨d, []⟩) := by
  rw [composeNoted, if_pos ((hollow_iff b).2 h)]

theorem compose_of_hollow (d : Descriptor) (address : Nat) {b : Blueprint} (h : b.Hollow) :
    d.compose address b = (.error (.failed .slotsOfEmptyObject), d) := by
  rw [compose, if_pos ((hollow_iff b).2 h)]

/-- If nothing is refused, a composition at an aligned address is a run of the writing loop. -/
theorem composeNoted_of_not_hollow (d : Descriptor) {address : Nat} {b : Blueprint}
    (h : ¬ b.Hollow) (haligned : address % alignment = 0) :
    (d.composeNoted address b).1 = (fill b.source.reported b.source.slots 0 (d.header b)).1 ∧
      (d.composeNoted address b).2.numbers =
        List.range (min b.source.reported b.source.slots.length) := by
  have hguard : ¬ (address % alignment != 0) = true := by simp [haligned]
  have herase := fillNoted_erase b.source.reported b.source.slots 0 ⟨d.header b, []⟩
  have hnumbers := numbers_fillNoted b.source.reported b.source.slots 0 ⟨d.header b, []⟩
  rw [composeNoted, if_neg fun hcheck => h ((hollow_iff b).1 hcheck), if_neg hguard]
  rw [List.nil_append, Nat.sub_zero, ← List.range_eq_range'] at hnumbers
  rw [← herase, ← hnumbers]
  show _ ∧ _
  simp only [header]
  rcases fillNoted b.source.reported b.source.slots 0 ⟨_, []⟩ with ⟨fault | _, noted⟩ <;>
    exact ⟨rfl, rfl⟩

/-- If nothing is refused, a composition at an aligned address writes the header, and then the
slots. -/
theorem compose_of_not_hollow (d : Descriptor) {address : Nat} {b : Blueprint} (h : ¬ b.Hollow)
    (haligned : address % alignment = 0) :
    d.compose address b =
      match fill b.source.reported b.source.slots 0 (d.header b) with
      | (.error fault, memory) => (.error fault, memory)
      | (.ok (), memory) =>
        (.ok (), { memory with slotCount := b.source.reported, initialized := true }) := by
  have hguard : ¬ (address % alignment != 0) = true := by simp [haligned]
  rw [compose, if_neg fun hcheck => h ((hollow_iff b).1 hcheck), if_neg hguard]
  rfl

theorem counts (d : Descriptor) {address : Nat} (b : Blueprint)
    (haligned : address % alignment = 0) : Counts d address b := by
  have herase := d.composeNoted_erase address b
  have houtcome : (d.composeNoted address b).1 = (d.compose address b).1 := congrArg (·.1) herase
  have hfill := fill_outcome b.source.reported b.source.slots (d.header b) (Nat.zero_le _)
  rw [Nat.zero_add] at hfill
  -- the numbers that are written are the first ones
  have hwritten : ∀ i ∈ (d.composeNoted address b).2.numbers,
      i < min b.source.reported b.source.slots.length := by
    intro i hi
    by_cases h : b.Hollow
    · rw [d.composeNoted_of_hollow address h] at hi
      cases hi
    · rw [(d.composeNoted_of_not_hollow h haligned).2] at hi
      exact List.mem_range.1 hi
  constructor
  case erase => exact herase
  case written => exact hwritten
  case inside =>
    intro size hsize i hi
    exact slotEnd_le (Nat.lt_of_lt_of_le (hwritten i hi) (Nat.min_le_left _ _)) hsize
  case returns =>
    rw [← houtcome, ← Blueprint.not_hollow_iff]
    by_cases h : b.Hollow
    · rw [d.composeNoted_of_hollow address h]
      simp [h]
    · rw [(d.composeNoted_of_not_hollow h haligned).1, hfill, and_iff_left h, ← Nat.compare_eq_eq]
      cases compare b.source.slots.length b.source.reported <;> simp
  case hollow => exact fun h => d.composeNoted_of_hollow address h
  case more =>
    intro h hmore
    obtain ⟨hrun, hnumbers⟩ := d.composeNoted_of_not_hollow h haligned
    rw [← houtcome, hrun, hfill, Nat.compare_eq_gt.2 hmore, hnumbers,
      Nat.min_eq_left (Nat.le_of_lt hmore)]
    exact ⟨rfl, rfl⟩
  case fewer =>
    intro h hfewer
    obtain ⟨hrun, hnumbers⟩ := d.composeNoted_of_not_hollow h haligned
    rw [← houtcome, hrun, hfill, Nat.compare_eq_lt.2 hfewer, hnumbers,
      Nat.min_eq_right (Nat.le_of_lt hfewer)]
    exact ⟨rfl, rfl⟩
  case marked_iff =>
    intro fault hfault
    by_cases h : b.Hollow
    · rw [d.compose_of_hollow address h, and_iff_right h]
    · rw [uninitialized_of_written (d.compose_of_not_hollow h haligned) hfault]
      simp [h]

end Descriptor

end TracedHeap
