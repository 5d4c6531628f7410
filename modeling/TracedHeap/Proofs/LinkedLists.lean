import TracedHeap.Handle.Simulated
import TracedHeap.Heap

/-! # Linked lists on the collected heap

A list is linked back to front, one object a value.  It is read front to back, each tail through
the read barrier.

1. **Memory**: which objects are intact (`Heap.intact?`), as objects of one size may lie partly
   over each other.
2. **Allocation** of bytes that are not in use (`Collector.Provides`), and what it leaves of the
   objects that lie on the heap.
3. **Building**: the calls on the collector, and the nodes (`Heap.link_lists`).
4. **Walking**: the nodes along the tails (`Heap.walk`).

The main statement is `Heap.linked_lists_read_back`.
-/

namespace TracedHeap

variable {σ α : Type}

/-! ## Memory -/

/-- Whether a byte lies in memory of a size at an address. -/
def Within (size address byte : Nat) : Prop :=
  address ≤ byte ∧ byte < address + size

/-- Whether memory of a size at one address shares a byte with that at another. -/
def Overlaps (size a b : Nat) : Prop :=
  a < b + size ∧ b < a + size
  deriving Decidable

section Overlaps

variable {size a b : Nat}

theorem overlaps_self (hsize : 0 < size) (a : Nat) : Overlaps size a a :=
  ⟨Nat.lt_add_of_pos_right hsize, Nat.lt_add_of_pos_right hsize⟩

/-- The later of the two first bytes is shared. -/
theorem Overlaps.shared (h : Overlaps size a b) :
    ∃ byte, Within size a byte ∧ Within size b byte := by
  obtain ⟨hab, hba⟩ := h
  by_cases hle : a ≤ b
  · exact ⟨b, ⟨hle, hba⟩, Nat.le_refl b, by omega⟩
  · exact ⟨a, ⟨Nat.le_refl a, by omega⟩, by omega, hab⟩

end Overlaps

namespace Heap

/-- The object of a size at an address, unless another one was moved over a part of it since. -/
def intact? (size : Nat) (h : Heap σ α) (address : Nat) : Option α :=
  match h.objects.find? fun entry => Overlaps size entry.1 address with
  | some (place, object) => if place = address then some object else none
  | none => none

section Intact

variable {size a b : Nat} {object : α} {h h' : Heap σ α}

theorem intact?_cons_self (hsize : 0 < size) (hobjects : h'.objects = (a, object) :: h.objects) :
    h'.intact? size a = some object := by
  simp [intact?, hobjects, overlaps_self hsize]

theorem intact?_cons_of_apart (hapart : ¬ Overlaps size a b)
    (hobjects : h'.objects = (a, object) :: h.objects) : h'.intact? size b = h.intact? size b := by
  simp [intact?, hobjects, hapart]

/-- The entry that tells whether an object is intact is the last one for its address. -/
theorem get?_of_intact? (hsize : 0 < size) (hintact : h.intact? size a = some object) :
    h.get? a = some object := by
  obtain ⟨collector, objects⟩ := h
  simp only [intact?, get?] at hintact ⊢
  induction objects with
  | nil => cases hintact
  | cons entry rest ih =>
    obtain ⟨place, moved⟩ := entry
    by_cases hplace : a = place
    · subst hplace
      simpa [overlaps_self hsize] using hintact
    · rw [List.lookup_cons, beq_false_of_ne hplace]
      by_cases hover : Overlaps size place a
      · simp [hover, Ne.symm hplace] at hintact
      · rw [List.find?_cons_of_neg (by simpa using hover)] at hintact
        exact ih hintact

theorem mem_of_intact? (hintact : h.intact? size a = some object) :
    (a, object) ∈ h.objects := by
  unfold intact? at hintact
  split at hintact
  case h_1 place moved hfind =>
    split at hintact
    · subst place
      cases hintact
      exact List.mem_of_find?_eq_some hfind
    · cases hintact
  case h_2 => cases hintact

end Intact

end Heap

/-! ## Allocation -/

/-- What becomes of the bytes in use when memory is allocated: it is aligned and not null, its
bytes were not in use and are from now on, and nothing is taken back. -/
structure Allots (inUse : σ → Nat → Prop) (layout : Layout) (s : σ) (result : Nat × σ) :
    Prop where
  nonNull : result.1 ≠ 0
  aligned : layout.align ∣ result.1
  fresh : ∀ byte, Within layout.size result.1 byte → ¬ inUse s byte
  taken : ∀ byte, Within layout.size result.1 byte → inUse result.2 byte
  kept : ∀ byte, inUse s byte → inUse result.2 byte

/-- Whether a collector, as long as its state is steady, provides memory that is not in use, and
shows readers what is stored, whatever they leave in the slot. -/
structure Collector.Provides (c : Collector σ) (steady : σ → Prop) (inUse : σ → Nat → Prop) :
    Prop where
  seen : ∀ stored {s}, steady s → (c.read stored s).1.seen = stored
  read_steady : ∀ stored {s}, steady s → steady (c.read stored s).2
  allocate_steady : ∀ layout {s}, steady s → steady (c.allocate layout s).2
  allots : ∀ {layout s}, steady s → 0 < layout.size → 0 < layout.align →
    Allots inUse layout s (c.allocate layout s)

/-- Whether a collector is steady and knows that the objects of a size on its heap are in use. -/
structure Heap.Accounted (steady : σ → Prop) (inUse : σ → Nat → Prop) (size : Nat)
    (h : Heap σ α) : Prop where
  steady : steady h.collector
  inUse : ∀ entry ∈ h.objects, ∀ byte, Within size entry.1 byte → inUse h.collector byte

section Allocation

variable {c : Collector σ} {steady : σ → Prop} {inUse : σ → Nat → Prop} {layout : Layout}
  {h : Heap σ α}

/-- No object lies where the next one is moved. -/
theorem Heap.Accounted.moveIn_apart (hh : h.Accounted steady inUse layout.size)
    (hc : c.Provides steady inUse) (hsize : 0 < layout.size) (halign : 0 < layout.align)
    (object : α) {entry : Nat × α} (hentry : entry ∈ h.objects) :
    ¬ Overlaps layout.size (moveIn c layout object h).1 entry.1 := by
  intro hover
  obtain ⟨byte, hnew, hold⟩ := hover.shared
  exact (hc.allots hh.steady hsize halign).fresh byte hnew (hh.inUse entry hentry byte hold)

theorem Heap.Accounted.moveIn (hh : h.Accounted steady inUse layout.size)
    (hc : c.Provides steady inUse) (hsize : 0 < layout.size) (halign : 0 < layout.align)
    (object : α) : (Heap.moveIn c layout object h).2.Accounted steady inUse layout.size := by
  refine ⟨hc.allocate_steady layout hh.steady, fun entry hentry byte hbyte => ?_⟩
  have hallots := hc.allots hh.steady hsize halign
  rcases List.mem_cons.mp hentry with rfl | hold
  · exact hallots.taken byte hbyte
  · exact hallots.kept byte (hh.inUse entry hold byte hbyte)

/-- An object that is moved to the heap leaves those that lie there as they are. -/
theorem Heap.Accounted.moveIn_intact? (hh : h.Accounted steady inUse layout.size)
    (hc : c.Provides steady inUse) (hsize : 0 < layout.size) (halign : 0 < layout.align)
    (object : α) {entry : Nat × α} (hentry : entry ∈ h.objects) :
    (Heap.moveIn c layout object h).2.intact? layout.size entry.1 =
      h.intact? layout.size entry.1 :=
  Heap.intact?_cons_of_apart (hh.moveIn_apart hc hsize halign object hentry) rfl

end Allocation

/-- Memory that was never handed out lies above the mark, and raises it. -/
theorem Simulated.place_spec {layout : Layout} (top : Nat) (hsize : 0 < layout.size)
    (halign : 0 < layout.align) :
    top < (place layout top).1 ∧ layout.align ∣ (place layout top).1 ∧
      (place layout top).2 = (place layout top).1 + layout.size := by
  have hplace : place layout top = ((top / layout.align + 2) * layout.align,
      (top / layout.align + 2) * layout.align + layout.size) :=
    if_neg (Nat.ne_of_gt hsize)
  rw [hplace]
  refine ⟨?_, Nat.dvd_mul_left .., rfl⟩
  have hdiv := Nat.div_add_mod top layout.align
  have hmod := Nat.mod_lt top halign
  simp only [Nat.add_mul, Nat.mul_comm (top / layout.align)]
  omega

/-- As long as its barriers change nothing, the simulated collector provides memory: the bytes in
use are those below its mark. -/
theorem Simulated.collector_provides :
    Simulated.collector.Provides (·.mode = .plain) (fun s byte => byte < s.top) where
  seen stored s hs := by
    show s.mode.seen stored = stored
    rw [hs]
    rcases stored with _ | _ | _ | _ <;> rfl
  read_steady _ _ hs := hs
  allocate_steady _ _ hs := hs
  allots {layout s} _ hsize halign := by
    obtain ⟨habove, haligned, hraised⟩ := place_spec s.top hsize halign
    refine ⟨Nat.ne_of_gt (Nat.zero_lt_of_lt habove), haligned, fun byte hbyte hold => ?fresh,
      fun byte hbyte => ?taken, fun byte hold => ?kept⟩
    case fresh => exact Nat.lt_asymm (Nat.lt_of_lt_of_le habove hbyte.1) hold
    case taken => exact Nat.lt_of_lt_of_eq hbyte.2 hraised.symm
    case kept =>
      show byte < (place layout s.top).2
      omega

/-! ## Building -/

/-- A call on a collector. -/
inductive CollectorCall where
  | read (stored : Pointer)
  | write (given stored : Pointer)
  | allocate (layout : Layout)
  deriving DecidableEq, Repr

/-- A collector that keeps a log of the calls on it. -/
def Collector.watched (c : Collector σ) : Collector (σ × List CollectorCall) where
  read stored s :=
    let (reading, s') := c.read stored s.1
    (reading, s', s.2 ++ [.read stored])
  write given stored s :=
    let (left, s') := c.write given stored s.1
    (left, s', s.2 ++ [.write given stored])
  allocate layout s :=
    let (address, s') := c.allocate layout s.1
    (address, s', s.2 ++ [.allocate layout])

namespace Heap

/-- The heap, as it is while its collector is watched. -/
def watch (h : Heap σ α) (log : List CollectorCall) : Heap (σ × List CollectorCall) α :=
  ⟨(h.collector, log), h.objects⟩

/-- All that linking a list does on the collector is to allocate a node for each value. -/
theorem link_watched (c : Collector σ) (values : List Int) (h : Heap σ Cons)
    (log : List CollectorCall) :
    link c.watched values (h.watch log) =
      ((link c values h).1, (link c values h).2.watch
        (log ++ List.replicate values.length (.allocate Cons.layout))) := by
  induction values with
  | nil => simp [link]
  | cons value rest ih =>
    rw [link, ih, List.length_cons, List.replicate_succ', ← List.append_assoc]
    rfl

/-- The addresses of the nodes of a list in the order of its values. -/
def linkPlaces (c : Collector σ) : List Int → Heap σ Cons → List Nat
  | [], _ => []
  | _ :: rest, h => (c.allocate Cons.layout (link c rest h).2.collector).1 :: linkPlaces c rest h

/-- Whether the nodes along the stored tails are intact, and are those at certain addresses with
certain values. -/
inductive Lists (h : Heap σ Cons) : Pointer → List (Nat × Int) → Prop
  | null : Lists h none []
  | node {address value next rest} :
    h.intact? Cons.layout.size address = some ⟨value, ⟨.strong, next⟩⟩ → Lists h next rest →
      Lists h (some (.object address)) ((address, value) :: rest)

theorem Lists.mono {h h' : Heap σ Cons} {first : Pointer} {nodes : List (Nat × Int)}
    (hlists : h.Lists first nodes)
    (hkept : ∀ node ∈ nodes, h'.intact? Cons.layout.size node.1 =
      h.intact? Cons.layout.size node.1) : h'.Lists first nodes := by
  induction hlists with
  | null => exact .null
  | node hnode _ ih =>
    obtain ⟨hfirst, hrest⟩ := List.forall_mem_cons.mp hkept
    exact .node (hfirst.trans hnode) (ih hrest)

/-- Each node of a list is an object of the heap. -/
theorem Lists.mem {h : Heap σ Cons} {first : Pointer} {nodes : List (Nat × Int)}
    (hlists : h.Lists first nodes) {node : Nat × Int} (hmem : node ∈ nodes) :
    ∃ object, (node.1, object) ∈ h.objects := by
  induction hlists with
  | null => cases hmem
  | node hnode _ ih =>
    rcases List.mem_cons.mp hmem with rfl | hrest
    · exact ⟨_, mem_of_intact? hnode⟩
    · exact ih hrest

section Linking

variable {c : Collector σ} {steady : σ → Prop} {inUse : σ → Nat → Prop} {h : Heap σ Cons}

/-- One more node is moved to the heap, whose tail points to the list so far. -/
theorem link_cons (c : Collector σ) (value : Int) (rest : List Int) (h : Heap σ Cons) :
    (link c (value :: rest) h).2 =
      (moveIn c Cons.layout ⟨value, ⟨.strong, (link c rest h).1⟩⟩ (link c rest h).2).2 := rfl

@[simp] theorem length_linkPlaces (c : Collector σ) (values : List Int) (h : Heap σ Cons) :
    (linkPlaces c values h).length = values.length := by
  induction values with
  | nil => rfl
  | cons value rest ih => simp [linkPlaces, ih]

theorem length_objects_link (c : Collector σ) (values : List Int) (h : Heap σ Cons) :
    (link c values h).2.objects.length = h.objects.length + values.length := by
  induction values with
  | nil => rfl
  | cons value rest ih => simp only [link_cons, moveIn, List.length_cons, ih]; omega

/-- The pointer that was returned for each of the values, or null if there is none left. -/
theorem link_drop_fst (c : Collector σ) (values : List Int) (h : Heap σ Cons) (n : Nat) :
    (link c (values.drop n) h).1 = (linkPlaces c values h)[n]?.map .object := by
  induction values generalizing n with
  | nil => rw [List.drop_nil]; rfl
  | cons value rest ih =>
    cases n with
    | zero => rfl
    | succ n => exact ih n

theorem link_accounted (hc : c.Provides steady inUse)
    (hh : h.Accounted steady inUse Cons.layout.size) (values : List Int) :
    (link c values h).2.Accounted steady inUse Cons.layout.size := by
  induction values with
  | nil => exact hh
  | cons value rest ih => exact ih.moveIn hc (by decide) (by decide) _

theorem mem_objects_link (c : Collector σ) (values : List Int) {h : Heap σ Cons} (n : Nat)
    {entry : Nat × Cons} (hentry : entry ∈ (link c (values.drop n) h).2.objects) :
    entry ∈ (link c values h).2.objects := by
  induction values generalizing n with
  | nil => rwa [List.drop_nil] at hentry
  | cons value rest ih =>
    cases n with
    | zero => exact hentry
    | succ n => exact List.mem_cons_of_mem _ (ih n hentry)

/-- One more node leaves the objects before it as they are. -/
theorem link_cons_intact? (hc : c.Provides steady inUse)
    (hh : h.Accounted steady inUse Cons.layout.size) (value : Int) (rest : List Int)
    {entry : Nat × Cons} (hentry : entry ∈ (link c rest h).2.objects) :
    (link c (value :: rest) h).2.intact? Cons.layout.size entry.1 =
      (link c rest h).2.intact? Cons.layout.size entry.1 :=
  (link_accounted hc hh rest).moveIn_intact? hc (by decide) (by decide)
    ⟨value, ⟨.strong, (link c rest h).1⟩⟩ hentry

/-- Whatever lies on the heap before a node is added stays as it is till the end. -/
theorem link_drop_intact? (hc : c.Provides steady inUse)
    (hh : h.Accounted steady inUse Cons.layout.size) (values : List Int) (n : Nat)
    {entry : Nat × Cons} (hentry : entry ∈ (link c (values.drop n) h).2.objects) :
    (link c values h).2.intact? Cons.layout.size entry.1 =
      (link c (values.drop n) h).2.intact? Cons.layout.size entry.1 := by
  induction values generalizing n with
  | nil => rw [List.drop_nil]
  | cons value rest ih =>
    cases n with
    | zero => rfl
    | succ n =>
      have hstep := link_cons_intact? hc hh value rest (mem_objects_link c rest n hentry)
      exact hstep.trans (ih n hentry)

theorem linkPlaces_placed (hc : c.Provides steady inUse)
    (hh : h.Accounted steady inUse Cons.layout.size) (values : List Int) :
    ∀ address ∈ linkPlaces c values h, address ≠ 0 ∧ Cons.layout.align ∣ address := by
  induction values with
  | nil => simp [linkPlaces]
  | cons value rest ih =>
    have hallots : Allots inUse Cons.layout (link c rest h).2.collector _ :=
      hc.allots (link_accounted hc hh rest).steady (by decide) (by decide)
    exact List.forall_mem_cons.mpr ⟨⟨hallots.nonNull, hallots.aligned⟩, ih⟩

/-- The nodes of a linked list are intact, and its tails lead from each to the next. -/
theorem link_lists (hc : c.Provides steady inUse)
    (hh : h.Accounted steady inUse Cons.layout.size) (values : List Int) :
    (link c values h).2.Lists (link c values h).1 ((linkPlaces c values h).zip values) := by
  induction values with
  | nil => exact .null
  | cons value rest ih =>
    refine .node (intact?_cons_self (by decide) rfl) (ih.mono fun node hnode => ?_)
    obtain ⟨object, hobject⟩ := ih.mem hnode
    exact link_cons_intact? hc hh value rest hobject

/-- The nodes of a list do not lie over each other. -/
theorem linkPlaces_apart (hc : c.Provides steady inUse)
    (hh : h.Accounted steady inUse Cons.layout.size) (values : List Int) :
    (linkPlaces c values h).Pairwise (¬ Overlaps Cons.layout.size · ·) := by
  induction values with
  | nil => exact .nil
  | cons value rest ih =>
    refine List.pairwise_cons.mpr ⟨fun address haddress => ?_, ih⟩
    obtain ⟨i, hi, rfl⟩ := List.mem_iff_getElem.mp haddress
    have hlength : i < ((linkPlaces c rest h).zip rest).length := by
      simpa using hi
    obtain ⟨object, hobject⟩ := (link_lists hc hh rest).mem (List.getElem_mem hlength)
    rw [List.getElem_zip] at hobject
    exact (link_accounted hc hh rest).moveIn_apart hc (by decide) (by decide)
      ⟨value, ⟨.strong, (link c rest h).1⟩⟩ hobject

end Linking

/-! ## Walking -/

/-- Goes along the tails of at most `fuel` nodes, each of which is read through the read barrier
and keeps what that leaves there.  The results are the nodes, the pointer where the walk ends, and
the heap after it. -/
def walk (c : Collector σ) : (fuel : Nat) → Pointer → Heap σ Cons →
    List (Nat × Int) × Pointer × Heap σ Cons
  | fuel + 1, some (.object address), h =>
    match h.intact? Cons.layout.size address with
    | some node =>
      let (next, tail, collector) := node.tail.get (.ofCollector c) h.collector
      let (nodes, last, h) :=
        walk c fuel next ⟨collector, (address, { node with tail }) :: h.objects⟩
      ((address, node.head) :: nodes, last, h)
    | none => ([], some (.object address), h)
  | _, pointer, h => ([], pointer, h)

theorem Lists.walk {c : Collector σ} {steady : σ → Prop} {inUse : σ → Nat → Prop}
    (hc : c.Provides steady inUse) {h : Heap σ Cons} (hsteady : steady h.collector)
    {first : Pointer} {nodes : List (Nat × Int)} (hlists : h.Lists first nodes)
    (hapart : (nodes.map (·.1)).Pairwise (¬ Overlaps Cons.layout.size · ·)) {fuel : Nat}
    (hfuel : nodes.length ≤ fuel) :
    (h.walk c fuel first).1 = nodes ∧ (h.walk c fuel first).2.1 = none := by
  induction nodes generalizing h first fuel with
  | nil =>
    cases hlists
    cases fuel <;> exact ⟨rfl, rfl⟩
  | cons node rest ih =>
    cases hlists with
    | @node address value next _ hnode hrest =>
      obtain ⟨hfirst, hpairs⟩ := List.pairwise_cons.mp hapart
      obtain ⟨fuel, rfl⟩ := Nat.exists_eq_succ_of_ne_zero (Nat.ne_zero_of_lt hfuel)
      -- what the read leaves in the slot does not matter: the walk does not come back here
      have hseen : (c.read next h.collector).1.seen = next := hc.seen next hsteady
      obtain ⟨hnodes, hlast⟩ := ih (hc.read_steady next hsteady)
        (h := ⟨(c.read next h.collector).2,
          (address, ⟨value, ⟨.strong, (c.read next h.collector).1.left⟩⟩) :: h.objects⟩)
        (hrest.mono fun node hmem =>
          intact?_cons_of_apart (hfirst node.1 (List.mem_map_of_mem hmem)) rfl)
        hpairs (Nat.le_of_succ_le_succ hfuel)
      simp [Heap.walk, hnode, RefHandle.get, Hooks.ofCollector, hseen, hnodes, hlast]

/-- The model's own way along the tails, which does not call the read barrier. -/
theorem Lists.followAtMost {h : Heap σ Cons} {first : Pointer} {nodes : List (Nat × Int)}
    (hlists : h.Lists first nodes) {fuel : Nat} (hfuel : nodes.length ≤ fuel) :
    h.followAtMost fuel first = nodes.map (·.2) := by
  induction hlists generalizing fuel with
  | null => cases fuel <;> rfl
  | node hnode _ ih =>
    obtain ⟨fuel, rfl⟩ := Nat.exists_eq_succ_of_ne_zero (Nat.ne_zero_of_lt hfuel)
    simp [Heap.followAtMost, get?_of_intact? (by decide) hnode,
      ih (Nat.le_of_succ_le_succ hfuel)]

theorem foldl_giveUp (given : List Nat) (h : Heap σ α) :
    given.foldl (fun h address => h.giveUp address) h = h := by
  induction given with
  | nil => rfl
  | cons address rest ih => exact ih

/-- Linked lists are read back as they were built.  Take a collector that allocates aligned memory
whose bytes were not in use, and whose reads see what is stored, and a heap whose objects are in
use.  A list of any values is linked back to front there, so that each node's tail is the pointer
that the previous node's move returned, and null at first.

- All calls on the collector are to allocate memory of the layout of a node, one a value.
- The pointers that are returned are distinct addresses, none of them null.
- No move changes any byte of the objects that lie on the heap before, nodes and others.
- A walk along the tails from the last pointer, through the read barrier, comes to exactly these
  nodes from the last to the first, with the values in the order of the list, and ends with null.
- Giving up any of the nodes, in any order and any number of times, changes nothing. -/
theorem linked_lists_read_back {c : Collector σ} {steady : σ → Prop} {inUse : σ → Nat → Prop}
    (hc : c.Provides steady inUse) (values : List Int) {h : Heap σ Cons}
    (hh : h.Accounted steady inUse Cons.layout.size) :
    let first := (link c values h).1
    let built := (link c values h).2
    (∀ log, link c.watched values (h.watch log) =
      (first, built.watch (log ++ List.replicate values.length (.allocate Cons.layout)))) ∧
    ∃ places : List Nat,
      places.length = values.length ∧ places.Nodup ∧
      (∀ place ∈ places, place ≠ 0 ∧ Cons.layout.align ∣ place) ∧
      (∀ n, (link c (values.drop n) h).1 = places[n]?.map .object) ∧
      (∀ n, ∀ entry ∈ (link c (values.drop n) h).2.objects,
        built.intact? Cons.layout.size entry.1 =
          (link c (values.drop n) h).2.intact? Cons.layout.size entry.1) ∧
      (∀ fuel, values.length ≤ fuel →
        (built.walk c fuel first).1 = places.zip values ∧ (built.walk c fuel first).2.1 = none) ∧
      built.follow first = values ∧
      ∀ given : List Nat, given.foldl (fun h place => h.giveUp place) built = built := by
  intro first built
  have hlists : built.Lists first ((linkPlaces c values h).zip values) := link_lists hc hh values
  have hapart := linkPlaces_apart hc hh values
  have hplaces : ((linkPlaces c values h).zip values).map (·.1) = linkPlaces c values h :=
    List.map_fst_zip (by simp)
  have hvalues : ((linkPlaces c values h).zip values).map (·.2) = values :=
    List.map_snd_zip (by simp)
  have hlength : ((linkPlaces c values h).zip values).length = values.length := by simp
  refine ⟨link_watched c values h, linkPlaces c values h, length_linkPlaces c values h, ?nodup,
    linkPlaces_placed hc hh values, link_drop_fst c values h,
    fun n entry hentry => link_drop_intact? hc hh values n hentry, fun fuel hfuel => ?walk,
    ?follow, fun given => foldl_giveUp given built⟩
  case nodup =>
    refine hapart.imp fun hplace hsame => hplace ?_
    rw [hsame]
    exact overlaps_self (by decide) _
  case walk =>
    rw [← hplaces] at hapart
    exact hlists.walk hc (link_accounted hc hh values).steady hapart (hlength ▸ hfuel)
  case follow =>
    have hobjects : built.objects.length = h.objects.length + values.length :=
      length_objects_link c values h
    have hfuel : ((linkPlaces c values h).zip values).length ≤ built.objects.length := by omega
    exact (hlists.followAtMost hfuel).trans hvalues

/-- The first and the last of three values are the same, and yet have nodes of their own. -/
theorem three_nodes_read_back :
    let first := (link Simulated.collector [5, -1, 5] ⟨.initial, []⟩).1
    let built := (link Simulated.collector [5, -1, 5] ⟨.initial, []⟩).2
    first = some (.object 80) ∧
    (built.walk Simulated.collector 3 first).1 = [(80, 5), (48, -1), (16, 5)] ∧
    (built.walk Simulated.collector 3 first).2.1 = none ∧
    built.follow first = [5, -1, 5] := by
  have hempty : (⟨.initial, []⟩ : Heap Simulated Cons).Accounted (·.mode = .plain)
      (fun s byte => byte < s.top) Cons.layout.size :=
    ⟨rfl, fun _ hentry => (nomatch hentry)⟩
  obtain ⟨-, places, -, -, -, -, -, hwalk, hfollow, -⟩ :=
    linked_lists_read_back Simulated.collector_provides [5, -1, 5] hempty
  exact ⟨by decide +kernel, by decide +kernel, (hwalk 3 (Nat.le_refl _)).2, hfollow⟩

end Heap

end TracedHeap
